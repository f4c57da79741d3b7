import ViewCompiler.Proofs.Filter.Legality
import ViewCompiler.Proofs.Request.Search
import ViewCompiler.Proofs.Service.Session
import ViewCompiler.Readers.Standard
import ViewCompiler.Service.Answer

/-!
# When a query is refused

A query should be refused before any backend is called. Most faults are found early; a search
engine with a resolver finds faulty access rules and sort keys only when it writes its request.

* `Query.FaultyRules`, `Query.FaultySort`: faults that only the writing of a request finds.
* `View.refuses_searchRequest`: a search is refused for one of these, if there is a scope query.
* `View.FindsLate`: a view and a query whose faults are found after a call.
* `View.refusals_make_no_call_iff`: **a query that is refused makes no call, whatever the backends
  do, exactly if its faults are not found late.**
-/

namespace ViewCompiler

/-! ### Access rules -/

/-- Does the rule name a field that is not there, or restrict rows by a filter that is not legal? -/
def AccessRule.Faulty [Readers] (fields : FieldSet) (max : Nat) (rule : AccessRule) : Prop :=
  (∃ name ∈ rule.fields, fields.contains name = false) ∨
    ∃ filter, rule.restriction? = some filter ∧ filter.check fields max ≠ .ok ()

namespace AccessRule

variable {fields : FieldSet} {max : Nat} {rule : AccessRule} {rules : List AccessRule}

theorem check_eq_ok [Readers] : rule.check fields max = .ok () ↔ ¬rule.Faulty fields max := by
  rw [check, Faulty, not_or]
  cases hname : rule.fields.find? fun name => !fields.contains name with
  | some name =>
    have hmissing : ∃ name ∈ rule.fields, fields.contains name = false :=
      ⟨name, List.mem_of_find?_eq_some hname, by simpa using List.find?_some hname⟩
    simp [hmissing]
  | none =>
    have hfields : ¬∃ name ∈ rule.fields, fields.contains name = false := by
      simpa using List.find?_eq_none.1 hname
    simp only [hfields, not_false_eq_true, true_and]
    cases rule.restriction? with
    | none => simp
    | some filter => simp [Result.mapError_eq_ok]

theorem checkAll_eq_ok [Readers] :
    checkAll fields max rules = .ok () ↔ ∀ rule ∈ rules, ¬rule.Faulty fields max := by
  induction rules with
  | nil => simp [checkAll]
  | cons rule rest ih =>
    rw [checkAll, Result.bind_unit_eq_ok, ih, check_eq_ok, List.forall_mem_cons]

theorem legal_restrictions [Readers] (h : ∀ rule ∈ rules, ¬rule.Faulty fields max) :
    ∀ filter ∈ rules.filterMap restriction?,
      filter.isEmpty = false ∧ filter.check fields max = .ok () := by
  intro filter hfilter
  obtain ⟨rule, hrule, hrestriction⟩ := List.mem_filterMap.1 hfilter
  refine ⟨(Filter.nonEmpty?_eq_some.1 hrestriction).2, by_contra fun hcheck => h rule hrule ?_⟩
  exact .inr ⟨filter, hrestriction, hcheck⟩

end AccessRule

namespace Query

variable {query : Query} {settings : QuerySettings} {fields : FieldSet} {grant : Grant}

/-- Is one of the access rules of the query faulty? -/
def FaultyRules [Readers] (settings : QuerySettings) (fields : FieldSet) (query : Query) : Prop :=
  ∃ rule ∈ query.rules, rule.Faulty fields settings.maxChildren

/-- Has one of the sort keys of the query no name or no direction? -/
def FaultySort (query : Query) : Prop :=
  ∃ key ∈ query.sort, key.field = "" ∨ key.direction = none

theorem exists_grant [Readers] :
    (∃ grant, query.grant settings fields = .ok grant) ↔ ¬query.FaultyRules settings fields := by
  simp only [FaultyRules, not_exists, not_and]
  rw [Query.grant, ← AccessRule.checkAll_eq_ok]
  split
  · next hrules =>
    rw [List.isEmpty_iff.1 hrules]
    exact ⟨fun _ => rfl, fun _ => ⟨_, rfl⟩⟩
  · simp only [Result.mapError_eq_ok, AccessRule.merge, Result.bind_unit_eq_ok]
    refine ⟨?_, fun h => ⟨_, h, rfl⟩⟩
    rintro ⟨_, h, -⟩
    exact h

theorem refuses_grant [Readers] :
    Refuses (query.grant settings fields) ↔ query.FaultyRules settings fields := by
  rw [← not_iff_not, ← exists_grant, Refuses.iff_of_blame, not_not]
  intro error herror
  rw [Query.grant] at herror
  split at herror
  · cases herror
  · obtain ⟨cause, rfl⟩ := Result.mapError_eq_error herror
    cases cause <;> rfl

theorem exists_rows [Readers] (addressing : Addressing)
    (h : query.grant settings fields = .ok grant) :
    ∃ clause, Filter.clause? addressing fields grant.filter = .ok clause := by
  have hrules : ∀ rule ∈ query.rules, ¬rule.Faulty fields settings.maxChildren :=
    fun rule hrule hfaulty => exists_grant.1 ⟨grant, h⟩ ⟨rule, hrule, hfaulty⟩
  rw [grant_filter h]
  exact Filter.exists_clause_oneOf addressing (AccessRule.legal_restrictions hrules)

/-! ### Filters and sort keys -/

theorem exists_filter [Readers] (addressing : Addressing)
    (h : query.checkFilter settings fields = .ok true) :
    ∃ clause, Filter.clause? addressing fields query.filter = .ok clause := by
  have hlegal : ∀ given, Filter.nonEmpty? query.filter = some given →
      given.check fields settings.maxChildren = .ok () := by
    intro given hgiven
    rw [checkFilter, hgiven] at h
    simp only at h
    split at h
    · split at h <;> cases h
    · obtain ⟨⟨⟩, hcheck, -⟩ := Result.map_eq_ok.1 h
      exact Result.mapError_eq_ok.1 hcheck
  exact Filter.exists_clause addressing hlegal

theorem isBinary_of_checkSort (h : query.checkSort fields = .ok ()) :
    ∀ key ∈ query.sort, ∀ field, fields.get? key.field = some field →
      field.type.isBinary = false := by
  intro key hkey field hfield
  rw [checkSort] at h
  split at h
  · cases h
  · next hnone => simpa [hfield] using List.find?_eq_none.1 hnone key hkey

end Query

namespace SortClause

variable {fields : FieldSet} {key : SortKey} {keys : List SortKey}

theorem exists_ofKey
    (h : ∀ field, fields.get? key.field = some field → field.type.isBinary = false) :
    (∃ clauses, ofKey fields key = .ok clauses) ↔ ¬(key.field = "" ∨ key.direction = none) := by
  rw [ofKey]
  split
  · next hname => simp [hname]
  · next hname =>
    cases hdirection : key.direction with
    | none => simp
    | some direction =>
      simp only [hname, reduceCtorEq, or_self, not_false_eq_true, iff_true]
      split
      · exact ⟨_, rfl⟩
      · cases hfield : fields.get? key.field with
        | none => exact ⟨_, rfl⟩
        | some field =>
          simp only [ofField, h field hfield, Bool.false_eq_true, ↓reduceIte]
          split <;> exact ⟨_, rfl⟩

theorem blame_of_ofField {field : Field} {direction : Direction} {error : QueryError}
    (h : ofField field direction = .error error) : error.blame = .badRequest := by
  rw [ofField] at h
  split at h
  · obtain rfl := Except.error.inj h
    rfl
  · split at h <;> cases h

theorem blame_of_ofKey {error : QueryError} (h : ofKey fields key = .error error) :
    error.blame = .badRequest := by
  rw [ofKey] at h
  split at h
  · obtain rfl := Except.error.inj h
    rfl
  split at h
  · obtain rfl := Except.error.inj h
    rfl
  split at h
  · cases h
  split at h
  · cases h
  · exact blame_of_ofField h

/-- Keys whose fields are not binary are accepted if each has a name and a direction. -/
theorem exists_ofKeys
    (h : ∀ key ∈ keys, ∀ field, fields.get? key.field = some field → field.type.isBinary = false) :
    (∃ clauses, ofKeys fields keys = .ok clauses) ↔
      ¬∃ key ∈ keys, key.field = "" ∨ key.direction = none := by
  induction keys with
  | nil => simp [ofKeys]
  | cons key rest ih =>
    obtain ⟨hkey, hrest⟩ := List.forall_mem_cons.1 h
    rw [List.exists_mem_cons_iff, not_or, ← exists_ofKey hkey, ← ih hrest]
    simp only [ofKeys, Result.bind_eq_ok]
    constructor
    · rintro ⟨_, first, hfirst, others, hothers, -⟩
      exact ⟨⟨first, hfirst⟩, others, hothers⟩
    · rintro ⟨⟨first, hfirst⟩, others, hothers⟩
      exact ⟨_, first, hfirst, others, hothers, rfl⟩

theorem blame_of_ofKeys {error : QueryError} (h : ofKeys fields keys = .error error) :
    error.blame = .badRequest := by
  induction keys with
  | nil => cases h
  | cons key rest ih =>
    rw [ofKeys] at h
    cases hkey : ofKey fields key with
    | error fault =>
      rw [hkey] at h
      obtain rfl := Except.error.inj h
      exact blame_of_ofKey hkey
    | ok first =>
      cases hrest : ofKeys fields rest with
      | error fault =>
        rw [hkey, hrest] at h
        obtain rfl := Except.error.inj h
        exact ih hrest
      | ok others =>
        rw [hkey, hrest] at h
        cases h

end SortClause

/-! ### The scope query -/

namespace Node

variable {routes : NodeRoutes} {node : Node} {nodes : List Node}

/-- Whether a node has a clause does not depend on the routes. -/
theorem exists_branch? {branch : Option (Json × Bool)} (other : NodeRoutes)
    (h : node.branch? routes = .ok branch) :
    ∃ branch', node.branch? other = .ok branch' ∧ branch'.isSome = branch.isSome := by
  rw [branch?] at h ⊢
  split at h
  · cases h
  · next viewId filter distinct source hconfig =>
    obtain ⟨found, hfound, rfl⟩ := Result.map_eq_ok.1 h
    obtain ⟨clause, hclause, -⟩ := Result.bind_eq_ok.1 hfound
    rw [branch, hclause]
    exact ⟨_, rfl, rfl⟩
  · exact ⟨none, rfl, by rw [← Except.ok.inj h]⟩
  · cases h
  · exact ⟨none, rfl, by rw [← Except.ok.inj h]⟩
  · cases h

theorem exists_allBranches {branches : List (Json × Bool)} (other : NodeRoutes)
    (h : allBranches routes nodes = .ok branches) :
    ∃ branches', allBranches other nodes = .ok branches' ∧
      branches'.length = branches.length := by
  induction nodes generalizing branches with
  | nil => exact ⟨branches, h, rfl⟩
  | cons node rest ih =>
    obtain ⟨first, hfirst, h⟩ := Result.bind_eq_ok.1 h
    obtain ⟨others, hothers, h⟩ := Result.bind_eq_ok.1 h
    obtain rfl := Except.ok.inj h
    obtain ⟨first', hfirst', hsome⟩ := exists_branch? other (Result.mapError_eq_ok.1 hfirst)
    obtain ⟨others', hothers', hlength⟩ := ih hothers
    refine ⟨first'.toList ++ others', ?_, ?_⟩
    · rw [allBranches, hfirst', hothers']
      rfl
    · rw [List.length_append, List.length_append, hlength]
      cases first <;> cases first' <;> simp_all

end Node

namespace View

variable {view : View} {settings : QuerySettings} {query : Query} {pagination : Pagination}
  {routes : NodeRoutes}

theorem exists_scopeQuery {result : BoolQuery × Bool} (other : NodeRoutes)
    (h : view.scopeQuery routes = .ok result) : ∃ result', view.scopeQuery other = .ok result' := by
  rw [scopeQuery] at h ⊢
  split at h
  · next hatomic => exact ⟨_, if_pos hatomic⟩
  · next hatomic =>
    rw [if_neg hatomic]
    obtain ⟨branches, hbranches, h⟩ := Result.bind_eq_ok.1 h
    obtain ⟨branches', hbranches', hlength⟩ := Node.exists_allBranches other hbranches
    rw [hbranches']
    rcases branches' with - | ⟨first, - | ⟨second, rest⟩⟩
    · obtain rfl := List.length_eq_zero_iff.1 hlength.symm
      cases h
    · exact ⟨_, rfl⟩
    · exact ⟨_, rfl⟩

/-- If there is a scope query, the documents of a search whose filter has been checked are refused
for faulty access rules and for nothing else. -/
theorem documents_outcome [Readers] (hfilter : query.checkFilter settings view.fields = .ok true) :
    (Refuses (view.documents settings query routes) ↔
      (∃ result, view.scopeQuery routes = .ok result) ∧
        query.FaultyRules settings view.fields) ∧
    ((∃ result, view.documents settings query routes = .ok result) ↔
      (∃ result, view.scopeQuery routes = .ok result) ∧
        ¬query.FaultyRules settings view.fields) := by
  obtain ⟨filter, hfilter⟩ := Query.exists_filter view.addressing hfilter
  simp only [documents, clause, hfilter]
  cases view.scopeQuery routes with
  | error cause => simp [Except.mapError, bind, Except.bind, QueryError.blame]
  | ok result =>
    by_cases hrules : query.FaultyRules settings view.fields
    · obtain ⟨fault, hgrant, hblame⟩ := Query.refuses_grant.2 hrules
      simp [Except.mapError, bind, Except.bind, hgrant, hblame, hrules]
    · obtain ⟨grant, hgrant⟩ := Query.exists_grant.2 hrules
      obtain ⟨rows, hrows⟩ := Query.exists_rows view.addressing hgrant
      simp [Except.mapError, bind, Except.bind, pure, Except.pure, hgrant, hrows, hrules]

/-- A search whose filter and sort fields have been checked is refused for its access rules or its
sort keys, if there is a scope query. -/
theorem refuses_searchRequest [Readers]
    (hfilter : query.checkFilter settings view.fields = .ok true)
    (hsort : query.checkSort view.fields = .ok ()) :
    Refuses (view.searchRequest settings query pagination routes) ↔
      (∃ result, view.scopeQuery routes = .ok result) ∧
        (query.FaultyRules settings view.fields ∨ query.FaultySort) := by
  have hsorted : Refuses (SortClause.ofKeys view.fields query.sort) ↔ query.FaultySort := by
    rw [Refuses.iff_of_blame fun _ => SortClause.blame_of_ofKeys,
      SortClause.exists_ofKeys (Query.isBinary_of_checkSort hsort), not_not, Query.FaultySort]
  obtain ⟨hrefuses, hexists⟩ := documents_outcome hfilter
  rw [searchRequest, Refuses.bind_iff, hrefuses]
  simp only [Refuses.bind_iff, hsorted, pure, Except.pure, Refuses.not_ok, and_false, exists_false,
    or_false, exists_and_right, hexists]
  by_cases hrules : query.FaultyRules settings view.fields <;> simp [hrules]

end View

/-! ### Answers of backends -/

namespace Page

theorem not_refuses_shapeAll {α : Type} (shape : α → Except RowError Row) (rows : List α) :
    ¬Refuses (shapeAll shape rows) := by
  rw [shapeAll, gather]
  split
  · exact Refuses.not_ok _
  · simp [QueryError.blame]

theorem not_refuses_ofSearch (view : View) (fields : FieldSet) (query : Query)
    (answer : SearchAnswer) (total : Option Nat) :
    ¬Refuses (ofSearch view fields query answer total) := by
  rw [ofSearch, Refuses.bind_iff, not_or]
  exact ⟨not_refuses_shapeAll _ _, fun ⟨_, _, h⟩ => Refuses.not_ok _ h⟩

theorem not_refuses_ofSql (view : View) (fields : FieldSet) (query : Query) (answer : SqlAnswer)
    (total : Option Nat) : ¬Refuses (ofSql view fields query answer total).1 := by
  rw [ofSql, Refuses.map_iff]
  exact not_refuses_shapeAll _ _

end Page

/-- Some text is an answer: this one, written as nested arrays, has no hits. -/
theorem SearchAnswer.exists_ofText : ∃ body answer, ofText body = .ok answer := by
  have hread : (ofText "[[null,[]]]").toOption.isSome = true := by decide +kernel
  cases hanswer : ofText "[[null,[]]]" with
  | error cause => simp [hanswer, Except.toOption] at hread
  | ok answer => exact ⟨_, answer, hanswer⟩

namespace View

open Session

variable {view : View} {settings : QuerySettings} {query : Query} {pagination : Pagination}
  {routes : IndexRoutes}

/-! ### After the first call -/

theorem neverRefuses_page {fields : FieldSet} {body : String} {total : Option Nat} :
    (attempt ((SearchAnswer.ofText body).mapError .payload) fun answer =>
      .done (Page.ofSearch view fields query answer total)).NeverRefuses :=
  neverRefuses_internal (fun _ => rfl) fun answer =>
    Page.not_refuses_ofSearch view fields query answer total

theorem neverRefuses_answerRows {request : SqlRequest} {timeout : Duration} {total : Option Nat} :
    (view.answerRows query request timeout total).NeverRefuses := fun _ =>
  neverRefuses_internal (fun _ => rfl) fun answer =>
    Page.not_refuses_ofSql view request.fields query answer total

/-- A search is refused when its request is written, or not at all. -/
theorem neverRefuses_answerRouted [Readers] {continuing : Bool} :
    (view.answerRouted settings query routes pagination continuing).NeverRefuses ↔
      ¬Refuses (view.searchRequest settings query pagination routes.byNode) := by
  rw [answerRouted, neverRefuses_attempt, and_iff_left]
  rintro ⟨request, fields⟩ -
  have hbody (body : String) : Session.NeverRefuses
      (if (query.needTotal && !continuing) = true then
        .ask (.count routes.indices request.count.compact) fun total =>
          attempt ((SearchAnswer.ofText body).mapError .payload) fun answer =>
            .done (Page.ofSearch view fields query answer (some total))
      else
        attempt ((SearchAnswer.ofText body).mapError .payload) fun answer =>
          .done (Page.ofSearch view fields query answer none)) := by
    split
    · exact fun _ => neverRefuses_page
    · exact neverRefuses_page
  simp only [askSearch]
  split
  · exact hbody
  · exact hbody

/-- Where a search is not refused, its answer is not, whether or not it opens a point in time. -/
theorem neverRefuses_answerIndices [Readers]
    (hfilter : query.checkFilter settings view.fields = .ok true)
    (hsort : query.checkSort view.fields = .ok ()) :
    (view.answerIndices settings query pagination routes).NeverRefuses ↔
      ¬((∃ result, view.scopeQuery routes.byNode = .ok result) ∧
        (query.FaultyRules settings view.fields ∨ query.FaultySort)) := by
  rw [answerIndices]
  split
  · simp only [NeverRefuses, neverRefuses_answerRouted, refuses_searchRequest hfilter hsort]
    exact forall_const String
  · rw [neverRefuses_answerRouted, refuses_searchRequest hfilter hsort]

/-! ### Before the first call -/

/-- Does the answer of a search engine with a resolver find a fault of the query only after a call?
A scroll that goes on looks at the access rules when it has a page; any other request is written
when the indices are known. -/
def FindsLate [Readers] (settings : QuerySettings) (query : Query) (pagination : Pagination)
    (view : View) : Prop :=
  match pagination with
  | .scroll _ (some _) => query.FaultyRules settings view.fields
  | _ =>
    (BaseTypes.ofView view).isEmpty = false ∧ (∃ result, view.scopeQuery [] = .ok result) ∧
      (query.FaultyRules settings view.fields ∨ query.FaultySort)

theorem refusesFirst_answerScroll [Readers] {scrollId : String} {keepAlive : Option String} :
    (view.answerScroll settings query scrollId keepAlive).RefusesFirst ↔
      ¬query.FaultyRules settings view.fields := by
  have hgrant (answer : SearchAnswer) :
      (attempt (query.grant settings view.fields) fun grant =>
        .done (Page.ofSearch view grant.fields query answer none)).NeverRefuses ↔
        ¬query.FaultyRules settings view.fields := by
    rw [neverRefuses_attempt, Query.refuses_grant]
    exact and_iff_left fun grant _ => Page.not_refuses_ofSearch view grant.fields query answer none
  constructor
  · intro h
    obtain ⟨body, answer, hanswer⟩ := SearchAnswer.exists_ofText
    obtain ⟨-, hnext⟩ := neverRefuses_attempt.1 (h body)
    exact (hgrant answer).1 (hnext answer (Result.mapError_eq_ok.2 hanswer))
  · exact fun hrules body =>
      neverRefuses_internal (fun _ => rfl) fun answer => (hgrant answer).2 hrules

theorem refusesFirst_answerIndexBase [Readers]
    (hfilter : query.checkFilter settings view.fields = .ok true)
    (hsort : query.checkSort view.fields = .ok ()) :
    (view.answerIndexBase settings query pagination).RefusesFirst ↔
      ¬view.FindsLate settings query pagination := by
  rw [answerIndexBase.eq_def, FindsLate.eq_def]
  split
  · exact refusesFirst_answerScroll
  cases hempty : (BaseTypes.ofView view).isEmpty with
  | true => simp [hempty, answerEmpty, RefusesFirst]
  | false =>
    simp only [hempty, Bool.false_eq_true, ↓reduceIte, true_and]
    constructor
    · rintro h ⟨hscope, hfaults⟩
      -- an index of no base type is routed to no node
      have hroute : (BaseTypes.ofView view).route ["x"] = .ok [] := rfl
      obtain ⟨-, hnext⟩ := neverRefuses_attempt.1 (h ["x"])
      have hanswer := hnext [] (Result.mapError_eq_ok.2 hroute)
      exact (neverRefuses_answerIndices hfilter hsort).1 hanswer ⟨hscope, hfaults⟩
    · intro h indices
      refine neverRefuses_internal (fun _ => rfl) fun byNode => ?_
      split
      · exact Refuses.not_ok _
      · refine (neverRefuses_answerIndices hfilter hsort).2 ?_
        rintro ⟨⟨result, hscope⟩, hfaults⟩
        exact h ⟨exists_scopeQuery [] hscope, hfaults⟩

theorem refusesFirst_answerRawSearch [Readers] :
    (view.answerRawSearch settings query pagination).RefusesFirst := by
  rw [answerRawSearch]
  split
  · trivial
  · refine refusesFirst_attempt.2 fun ⟨request, fields⟩ _ body => ?_
    exact neverRefuses_internal (fun _ => rfl) fun answer =>
      Page.not_refuses_ofSearch view fields query answer answer.total

theorem refusesFirst_answerSql [Readers] :
    (view.answerSql settings query pagination).RefusesFirst := by
  refine refusesFirst_attempt.2 fun ⟨request, compiled⟩ _ =>
    refusesFirst_attempt.2 fun timeout _ => ?_
  split
  · exact neverRefuses_answerRows
  · refine fun body => neverRefuses_internal (fun _ => rfl) fun count => ?_
    split
    · exact Refuses.not_ok _
    · exact neverRefuses_answerRows

theorem refusesFirst_answerChecked [Readers] :
    (view.answerChecked settings query).RefusesFirst ↔
      ¬∃ pagination, view.engine = .indexBase ∧
        query.checkFilter settings view.fields = .ok true ∧
        query.checkSort view.fields = .ok () ∧ query.pagination .indexBase = .ok pagination ∧
        view.FindsLate settings query pagination := by
  rw [answerChecked, refusesFirst_attempt]
  constructor
  · rintro h ⟨pagination, hengine, hfilter, hsort, hpagination, hlate⟩
    have hchecked := refusesFirst_attempt.1 (h true hfilter) () hsort
    have hanswer := refusesFirst_attempt.1 hchecked pagination
      (Result.mapError_eq_ok.2 (hengine ▸ hpagination))
    rw [hengine] at hanswer
    exact (refusesFirst_answerIndexBase hfilter hsort).1 hanswer hlate
  · intro h mayHaveRows hfilter
    cases mayHaveRows with
    | false => trivial
    | true =>
      refine refusesFirst_attempt.2 fun _ hsort => refusesFirst_attempt.2 fun pagination hp => ?_
      cases hengine : view.engine with
      | indexBase =>
        refine (refusesFirst_answerIndexBase hfilter hsort).2 fun hlate => ?_
        rw [hengine] at hp
        exact h ⟨pagination, hengine, hfilter, hsort, Result.mapError_eq_ok.1 hp, hlate⟩
      | rawSearch => exact refusesFirst_answerRawSearch
      | sql => exact refusesFirst_answerSql

/-- **A query that is refused makes no call, whatever the backends do, exactly if its faults are not
found late.** -/
theorem refusals_make_no_call_iff [Readers] (view : View) (settings : QuerySettings)
    (query : Query) :
    (∀ (σ : Type) (backends : Backends σ) (state : σ),
      Refuses ((view.answer settings query).run backends state).result →
        ((view.answer settings query).run backends state).calls = []) ↔
      ¬∃ valid pagination, view.checked settings = .ok valid ∧ valid.engine = .indexBase ∧
        query.checkFilter settings valid.fields = .ok true ∧
        query.checkSort valid.fields = .ok () ∧
        query.pagination .indexBase = .ok pagination ∧
        valid.FindsLate settings query pagination := by
  rw [← refusesFirst_iff, answer, refusesFirst_attempt]
  simp only [Result.mapError_eq_ok, refusesFirst_answerChecked]
  constructor
  · rintro h ⟨valid, pagination, hchecked, hlate⟩
    exact h valid hchecked ⟨pagination, hlate⟩
  · rintro h valid hchecked ⟨pagination, hlate⟩
    exact h ⟨valid, pagination, hchecked, hlate⟩

/-- An atomic view of logs. -/
def ofLogs : View :=
  { View.atomic "logs" "logs" .indexBase with fields := .ofList [.ofName "status" .long] }

/-- A query that pages at a point in time and does not say in which direction it sorts. -/
def undirected : Query where
  sort := [{ field := "status" }]
  useCursor := true
  cursor := some { pitKeepAlive := some "1m" }

theorem refusals_make_no_call_iff_undirected :
    ¬∀ (σ : Type) (backends : Backends σ) (state : σ),
      Refuses ((ofLogs.answer {} undirected).run backends state).result →
        ((ofLogs.answer {} undirected).run backends state).calls = [] := by
  rw [refusals_make_no_call_iff, not_not]
  have hsort : undirected.FaultySort := ⟨_, List.mem_singleton_self _, .inr rfl⟩
  exact ⟨{ ofLogs with isSingleSource := true }, .searchAfter [] none (some "1m"), rfl, rfl, rfl,
    rfl, rfl, rfl, ⟨({}, false), rfl⟩, .inr hsort⟩

/-- The indices are resolved and a point in time is opened. -/
example :
    let backends : Backends Unit := fun call state =>
      match call with
      | .resolve .. => (.ok ["x-logs-1"], state)
      | .openPit .. => (.ok "pit", state)
      | _ => (.error default, state)
    ((ofLogs.answer {} undirected).run backends ()).calls =
      [.resolve ["logs"] 0 0, .openPit ["x-logs-1"] "1m"] := rfl

end View

end ViewCompiler
