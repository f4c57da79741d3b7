import ViewCompiler.Proofs.Filter.Leaves
import ViewCompiler.Readers.Standard

/-!
# Which legal filters have SQL conditions

A legal filter can always be written as a search clause. As an SQL condition it can be written
unless one of its leaves has no SQL form.

* `Filter.HasNoSql`: the leaves without an SQL form.
* `Filter.exists_condition_iff`: a legal leaf has a condition unless it is one of them.
* `Predicate.exists_condition_iff`: a predicate has a condition if all its comparisons have.
* `Filter.cases_of_check`: a legal filter is empty, or a predicate stands for it.
* `Filter.legal_compiles`: **a legal filter has a clause, and a condition unless a leaf has no SQL
  form**.
-/

namespace ViewCompiler

namespace Comparison

variable (comparison : Comparison)

theorem exists_literal_iff (value : Json) :
    (∃ text, comparison.literal value = .ok text) ↔ value.isContainer = false := by
  rw [literal]
  cases value with
  | bool value => cases value <;> simp [Sql.literal?, Json.isContainer]
  | _ => simp [Sql.literal?, Json.isContainer]

theorem exists_mapM_literal_iff (items : List Json) :
    (∃ texts, items.mapM comparison.literal = .ok texts) ↔
      ∀ item ∈ items, item.isContainer = false := by
  simp only [Result.exists_mapM_iff, comparison.exists_literal_iff]

/-- The values that are written as literals, each on its own. -/
def literalValues (comparison : Comparison) : List Json :=
  match comparison.operator with
  | .eq | .notEq | .gt | .gte | .lt | .lte => [comparison.value]
  | .isIn | .notIn => comparison.value.items?.getD []
  | .range | .outRange | .between =>
    [(Predicate.bounds comparison.value).1, (Predicate.bounds comparison.value).2]
  | _ => []

theorem exists_condition_iff {comparison : Comparison}
    (hcolumn : comparison.column.column ≠ Filter.allFields)
    (hlogical : comparison.operator.isLogical = false)
    (hscoring : comparison.operator.isScoring = false) :
    (∃ text, comparison.condition = .ok text) ↔
      ∀ value ∈ comparison.literalValues, value.isContainer = false := by
  rw [condition, if_neg hcolumn, literalValues]
  cases hoperator : comparison.operator with
  | eq | notEq | gt | gte | lt | lte =>
    simp only [Result.map_eq_ok, List.forall_mem_singleton, ← comparison.exists_literal_iff]
    exact ⟨fun ⟨_, literal, hliteral, _⟩ => ⟨literal, hliteral⟩,
      fun ⟨literal, hliteral⟩ => ⟨_, literal, hliteral, rfl⟩⟩
  | isIn | notIn =>
    simp only [literals, Result.map_eq_ok, ← comparison.exists_mapM_literal_iff]
    constructor
    · rintro ⟨_, _, ⟨texts, htexts, -⟩, -⟩
      exact ⟨texts, htexts⟩
    · rintro ⟨texts, htexts⟩
      exact ⟨_, _, ⟨texts, htexts, rfl⟩, rfl⟩
  | range | outRange | between =>
    simp only [Result.bind_eq_ok, List.forall_mem_cons, List.not_mem_nil, false_imp_iff,
      implies_true, and_true, ← comparison.exists_literal_iff]
    constructor
    · rintro ⟨_, lower, hlower, upper, hupper, -⟩
      exact ⟨⟨lower, hlower⟩, ⟨upper, hupper⟩⟩
    · rintro ⟨⟨lower, hlower⟩, ⟨upper, hupper⟩⟩
      exact ⟨_, lower, hlower, upper, hupper, rfl⟩
  | all | any => simp [hoperator, Operator.isLogical] at hlogical
  | fullText | phrase => simp [hoperator, Operator.isScoring] at hscoring
  | _ => simp

end Comparison

/-! ### Leaves -/

namespace Filter

/-- A leaf that has no SQL form over the fields. -/
inductive HasNoSql (fields : FieldSet) (leaf : Filter × Operator) : Prop where
  /-- Full text is for search engines. -/
  | fullText (operator : leaf.2 = .fullText ∨ leaf.2 = .phrase)
  /-- The field reads the column that stands for every column. -/
  | everyColumn {field : Field} (found : fields.get? leaf.1.field = some field)
      (source : field.sourceName = allFields)
  /-- A list of values or bounds holds an array or an object. -/
  | nested {items : List Json} {item : Json}
      (operator : leaf.2 ∈ [.isIn, .notIn, .range, .outRange, .between])
      (value : leaf.1.value = some (.array items)) (member : item ∈ items)
      (container : item.isContainer = true)

variable {addressing : Addressing} {fields : FieldSet} {max : Nat} {filter : Filter}
  {leaf : Filter × Operator} {found : Comparison}

/-- Beside a field with a column of its own and an operator other than full text only the values are
left. -/
theorem hasNoSql_iff_nested {field : Field} (hfield : fields.get? leaf.1.field = some field)
    (hsource : field.sourceName ≠ allFields) (hscoring : leaf.2.isScoring = false) :
    HasNoSql fields leaf ↔ leaf.2 ∈ [.isIn, .notIn, .range, .outRange, .between] ∧
      ∃ items, leaf.1.value = some (.array items) ∧ ∃ item ∈ items, item.isContainer = true := by
  constructor
  · rintro (hoperator | ⟨hfound, hall⟩ | ⟨hoperator, hvalue, hmember, hcontainer⟩)
    · simp [isScoring_iff.2 hoperator] at hscoring
    · obtain rfl := Option.some.inj (hfield.symm.trans hfound)
      exact absurd hall hsource
    · exact ⟨hoperator, _, hvalue, _, hmember, hcontainer⟩
  · rintro ⟨hoperator, items, hvalue, item, hmember, hcontainer⟩
    exact .nested hoperator hvalue hmember hcontainer

/-- The literals of a legal leaf are scalars, unless a list of values or bounds holds another. -/
theorem forall_literalValues_iff [Readers] (hlegal : LegalLeaf fields leaf)
    (hfound : comparison addressing fields leaf = .ok found) :
    (∀ value ∈ found.literalValues, value.isContainer = false) ↔
      ¬(leaf.2 ∈ [.isIn, .notIn, .range, .outRange, .between] ∧
        ∃ items, leaf.1.value = some (.array items) ∧
          ∃ item ∈ items, item.isContainer = true) := by
  obtain ⟨column, -, rfl⟩ := Result.map_eq_ok.1 hfound
  obtain ⟨given, operator⟩ := leaf
  cases operator with
  | isIn | notIn =>
    obtain ⟨items, hitems : given.value = _⟩ := hlegal.exists_items (by simp)
    simp [Comparison.literalValues, hitems, Json.items?]
  | range | outRange | between =>
    obtain ⟨lower, upper, hbounds : given.value = _⟩ := hlegal.exists_bounds (by simp)
    simp [Comparison.literalValues, hbounds, Predicate.bounds, Json.items?]
  | eq | notEq | gt | gte | lt | lte =>
    simpa [Comparison.literalValues] using hlegal.isContainer_eq_false rfl
  | _ => simp [Comparison.literalValues]

theorem exists_condition_iff [Readers] (hlegal : LegalLeaf fields leaf)
    (hfound : comparison addressing fields leaf = .ok found) :
    (∃ text, found.condition = .ok text) ↔ ¬HasNoSql fields leaf := by
  have hvalues := forall_literalValues_iff hlegal hfound
  obtain ⟨column, hcolumn, rfl⟩ := Result.map_eq_ok.1 hfound
  obtain ⟨hall, hscoring, hresolve⟩ | ⟨field, hall, hfield, hresolve⟩ :=
    hlegal.resolve_cases addressing
  · obtain rfl := Except.ok.inj (hresolve.symm.trans hcolumn)
    have hno : HasNoSql fields leaf := .fullText (isScoring_iff.1 hscoring)
    simp [Comparison.condition, Column.all, hno]
  obtain rfl := Except.ok.inj (hresolve.symm.trans hcolumn)
  by_cases hsource : field.sourceName = allFields
  · have hno : HasNoSql fields leaf := .everyColumn hfield hsource
    simp [Comparison.condition, Column.ofField, hsource, hno]
  by_cases hscoring : leaf.2.isScoring = true
  · have hno : HasNoSql fields leaf := .fullText (isScoring_iff.1 hscoring)
    rcases isScoring_iff.1 hscoring with hoperator | hoperator <;>
      simp [Comparison.condition, Column.ofField, hsource, hno, hoperator]
  have hscoring : leaf.2.isScoring = false := by simpa using hscoring
  rw [Comparison.exists_condition_iff hsource hlegal.isLogical hscoring, hvalues,
    hasNoSql_iff_nested hfield hsource hscoring]

end Filter

/-! ### Trees -/

namespace Predicate

mutual

theorem exists_condition_iff (predicate : Predicate) :
    (∃ text, predicate.condition = .ok text) ↔
      ∀ comparison ∈ predicate.comparisons, ∃ text, comparison.condition = .ok text := by
  match predicate with
  | .leaf comparison => simp [condition, comparisons]
  | .all parts | .any parts =>
    rw [condition, comparisons, ← exists_conditions_iff parts]
    simp only [Result.map_eq_ok]
    exact ⟨fun ⟨_, texts, htexts, _⟩ => ⟨texts, htexts⟩,
      fun ⟨texts, htexts⟩ => ⟨_, texts, htexts, rfl⟩⟩

theorem exists_conditions_iff (predicates : List Predicate) :
    (∃ texts, conditions predicates = .ok texts) ↔
      ∀ comparison ∈ comparisonsOf predicates, ∃ text, comparison.condition = .ok text := by
  match predicates with
  | [] => simp [conditions, comparisonsOf]
  | part :: rest =>
    simp only [comparisonsOf, List.forall_mem_append, ← exists_condition_iff part,
      ← exists_conditions_iff rest, conditions, Result.bind_eq_ok]
    constructor
    · rintro ⟨_, first, hfirst, others, hothers, -⟩
      exact ⟨⟨first, hfirst⟩, ⟨others, hothers⟩⟩
    · rintro ⟨⟨first, hfirst⟩, ⟨others, hothers⟩⟩
      exact ⟨_, first, hfirst, others, hothers, rfl⟩

end

end Predicate

namespace Filter

variable {addressing : Addressing} {fields : FieldSet} {max : Nat} {filter : Filter}

theorem forall_condition_iff [Readers] {leaves : List (Filter × Operator)}
    {comparisons : List Comparison}
    (hcomparisons : leaves.mapM (comparison addressing fields) = .ok comparisons)
    (hlegal : ∀ leaf ∈ leaves, LegalLeaf fields leaf) :
    (∀ comparison ∈ comparisons, ∃ text, comparison.condition = .ok text) ↔
      ∀ leaf ∈ leaves, ¬HasNoSql fields leaf := by
  constructor
  · intro h leaf hleaf
    obtain ⟨found, hfound, hcomparison⟩ := Result.exists_mem_of_mapM_ok hcomparisons hleaf
    exact (exists_condition_iff (hlegal leaf hleaf) hcomparison).1 (h found hfound)
  · intro h found hfound
    obtain ⟨leaf, hleaf, hcomparison⟩ := Result.exists_of_mem_mapM_ok hcomparisons hfound
    exact (exists_condition_iff (hlegal leaf hleaf) hcomparison).2 (h leaf hleaf)

theorem condition?_eq {filter : Option Filter} {given : Filter} {predicate : Predicate}
    (hgiven : nonEmpty? filter = some given)
    (h : Predicate.ofFilter addressing fields given = .ok predicate) :
    condition? addressing fields filter = predicate.condition.map some := by
  rw [condition?, hgiven]
  simp only [h]
  change (predicate.condition >>= fun text => pure (some text)) = _
  cases predicate.condition <;> rfl

/-- A legal filter is empty, or a predicate stands for it: its condition is that of the predicate,
whose comparisons are those of the leaves. -/
theorem cases_of_check [Readers] (addressing : Addressing) (h : filter.check fields max = .ok ()) :
    filter.isEmpty = true ∧ nonEmpty? (some filter) = none ∨
      filter.isEmpty = false ∧ nonEmpty? (some filter) = some filter ∧
        checkTree fields max filter = .ok () ∧
        ∃ predicate, Predicate.ofFilter addressing fields filter = .ok predicate ∧
          condition? addressing fields (some filter) = predicate.condition.map some ∧
          filter.leaves.mapM (comparison addressing fields) = .ok predicate.comparisons := by
  cases hempty : filter.isEmpty with
  | true => exact .inl ⟨rfl, by simp [nonEmpty?, Option.filter, hempty]⟩
  | false =>
    have hgiven : nonEmpty? (some filter) = some filter := nonEmpty?_eq_some.2 ⟨rfl, hempty⟩
    rw [check, if_neg (by simp [hempty])] at h
    obtain ⟨predicate, hpredicate⟩ := exists_predicate addressing h
    exact .inr ⟨rfl, hgiven, h, predicate, hpredicate, condition?_eq hgiven hpredicate,
      mapM_comparison_leaves hpredicate⟩

/-- **A legal filter has a search clause**, which scores if a leaf is full text, **and an SQL
condition unless one of its leaves has no SQL form**. -/
theorem legal_compiles [Readers] (addressing : Addressing) (h : filter.check fields max = .ok ()) :
    (∃ clause, clause? addressing fields (some filter) = .ok clause ∧
      (clause.any Prod.snd = true ↔ filter.IsFullText)) ∧
    ((∃ error, condition? addressing fields (some filter) = .error error) ↔
      ∃ leaf ∈ filter.leaves, HasNoSql fields leaf) := by
  refine ⟨?_, ?_⟩
  · obtain ⟨clause, hclause⟩ := exists_clause addressing fun given hgiven => by
      obtain rfl := Option.some.inj (nonEmpty?_eq_some.1 hgiven).1
      exact h
    -- which leaf clauses a document matches does not matter for the scores
    obtain ⟨-, hscores⟩ := @clause?_spec (fun _ => true) _ _ _ _ hclause
    exact ⟨clause, hclause, by simpa using hscores⟩
  obtain ⟨hempty, hnone⟩ | ⟨-, -, htree, predicate, -, hcondition, hcomparisons⟩ :=
    cases_of_check addressing h
  · simp [condition?, hnone, leaves_of_isEmpty hempty]
  have hleaves : (∃ text, predicate.condition = .ok text) ↔
      ∀ leaf ∈ filter.leaves, ¬HasNoSql fields leaf := by
    rw [Predicate.exists_condition_iff]
    exact forall_condition_iff hcomparisons fun leaf hleaf => legal_of_mem_leaves htree hleaf
  rw [hcondition]
  simp only [Result.map_eq_error, Result.exists_error_iff, hleaves, not_forall, not_not,
    exists_prop]

/-- The fields of a log. -/
def logFields : FieldSet := .ofList [.ofName "status" .long, .ofName "message" .text]

/-- A list of values that holds a list, beside full text. -/
def nestedStatus : Filter :=
  .conj
    [.leaf "status" "in" (.array [.int 500, .array [.int 502]]),
      .disj [.leaf "message" "match" (.string "disk"), .unary "status" "exist"]]

theorem legal_compiles_nestedStatus :
    nestedStatus.check logFields 10 = .ok () ∧
      (∃ clause, clause? .byName logFields (some nestedStatus) = .ok clause ∧
        clause.any Prod.snd = true) ∧
      ∃ error, condition? .byName logFields (some nestedStatus) = .error error := by
  have hlegal : nestedStatus.check logFields 10 = .ok () := rfl
  obtain ⟨⟨clause, hclause, hscores⟩, hfails⟩ := legal_compiles .byName hlegal
  refine ⟨hlegal, ⟨clause, hclause, hscores.2 ?_⟩, hfails.2 ?_⟩
  · exact ⟨(.leaf "message" "match" (.string "disk"), .fullText), by
      simp [nestedStatus, conj, disj, leaf, leaves, leavesOf, Operator.ofName?, Operator.table],
      .inl rfl⟩
  · exact ⟨(.leaf "status" "in" (.array [.int 500, .array [.int 502]]), .isIn), by
      simp [nestedStatus, conj, disj, leaf, leaves, leavesOf, Operator.ofName?, Operator.table],
      .nested (by simp) rfl (List.mem_cons_of_mem _ List.mem_cons_self) rfl⟩

end Filter

end ViewCompiler
