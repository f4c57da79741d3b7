import ViewCompiler.Proofs.Filter.Meaning
import ViewCompiler.Query.Access

/-!
# Legal filters have clauses

* `Filter.exists_predicate`: the operators of a legal filter are known and its fields are there.
* `Filter.exists_clause`: so a search clause can be written for it.
-/

namespace ViewCompiler

namespace Filter

variable {fields : FieldSet} {max : Nat} {filter : Filter} {operator : Operator}

theorem require_eq_ok {condition : Bool} {error : FilterError} :
    require condition error = .ok () ↔ condition = true := by
  cases condition <;> simp [require]

theorem exists_column (addressing : Addressing) (h : checkField fields filter operator = .ok ()) :
    ∃ column, Column.resolve addressing fields filter.field = .ok column := by
  rw [checkField] at h
  rw [Column.resolve]
  split at h
  · next hall => exact ⟨_, if_pos hall⟩
  · next hall =>
    rw [if_neg hall]
    split at h
    · cases h
    · next field hfield =>
      rw [hfield]
      exact ⟨_, rfl⟩

mutual

theorem exists_predicate [Readers] (addressing : Addressing) {filter : Filter}
    (h : checkTree fields max filter = .ok ()) :
    ∃ predicate, Predicate.ofFilter addressing fields filter = .ok predicate := by
  match filter with
  | ⟨field, operation, children, valueFrom, value⟩ =>
    rw [checkTree] at h
    obtain ⟨-, h⟩ := Result.bind_unit_eq_ok.1 h
    obtain ⟨-, h⟩ := Result.bind_unit_eq_ok.1 h
    cases hoperator : Operator.ofName? operation with
    | none => simp [hoperator] at h
    | some operator =>
      simp only [hoperator] at h
      split at h
      · next hlogical =>
        obtain ⟨-, h⟩ := Result.bind_unit_eq_ok.1 h
        obtain ⟨parts, hparts⟩ := exists_predicates addressing h
        rw [Predicate.ofFilter, hoperator]
        cases operator with
        | all | any => exact ⟨_, by rw [hparts]; rfl⟩
        | _ => cases hlogical
      · next hleaf =>
        obtain ⟨-, h⟩ := Result.bind_unit_eq_ok.1 h
        obtain ⟨-, h⟩ := Result.bind_unit_eq_ok.1 h
        obtain ⟨column, hcolumn⟩ := exists_column addressing h
        rw [ofFilter_leaf hoperator (by simpa using hleaf), hcolumn]
        exact ⟨_, rfl⟩

theorem exists_predicates [Readers] (addressing : Addressing) {filters : List Filter}
    (h : checkTrees fields max filters = .ok ()) :
    ∃ predicates, Predicate.ofFilters addressing fields filters = .ok predicates := by
  match filters with
  | [] => exact ⟨[], rfl⟩
  | filter :: rest =>
    obtain ⟨hfilter, hrest⟩ := Result.bind_unit_eq_ok.1 h
    obtain ⟨predicate, hpredicate⟩ := exists_predicate addressing hfilter
    obtain ⟨predicates, hpredicates⟩ := exists_predicates addressing hrest
    rw [Predicate.ofFilters, hpredicate, hpredicates]
    split
    · exact ⟨_, rfl⟩
    · exact ⟨_, rfl⟩

end

theorem clause?_eq_ok {addressing : Addressing} {filter : Option Filter} {given : Filter}
    {predicate : Predicate} (hgiven : nonEmpty? filter = some given)
    (h : Predicate.ofFilter addressing fields given = .ok predicate) :
    clause? addressing fields filter = .ok (some (predicate.clause, predicate.needsScoring)) := by
  rw [clause?, hgiven]
  simp [h, Except.map]

theorem exists_clause [Readers] (addressing : Addressing) {filter : Option Filter}
    (h : ∀ given, nonEmpty? filter = some given → given.check fields max = .ok ()) :
    ∃ clause, clause? addressing fields filter = .ok clause := by
  cases hgiven : nonEmpty? filter with
  | none => exact ⟨none, by rw [clause?, hgiven]⟩
  | some given =>
    have hcheck := h given hgiven
    rw [check, (nonEmpty?_eq_some.1 hgiven).2] at hcheck
    obtain ⟨predicate, hpredicate⟩ := exists_predicate addressing hcheck
    exact ⟨_, clause?_eq_ok hgiven hpredicate⟩

theorem checkTrees_eq_ok [Readers] {filters : List Filter} :
    checkTrees fields max filters = .ok () ↔
      ∀ filter ∈ filters, checkTree fields max filter = .ok () := by
  induction filters with
  | nil => simp [checkTrees]
  | cons filter rest ih => rw [checkTrees, Result.bind_unit_eq_ok, ih, List.forall_mem_cons]

/-- Legal row filters that each restrict something have a clause when they are merged, whatever
their number. -/
theorem exists_clause_oneOf [Readers] (addressing : Addressing) {filters : List Filter}
    (h : ∀ filter ∈ filters, filter.isEmpty = false ∧ filter.check fields max = .ok ()) :
    ∃ clause, clause? addressing fields (AccessRule.oneOf filters) = .ok clause := by
  match filters with
  | [] => exact ⟨none, rfl⟩
  | [filter] =>
    obtain ⟨-, hcheck⟩ := h filter List.mem_cons_self
    exact exists_clause addressing fun given hgiven =>
      Option.some.inj (nonEmpty?_eq_some.1 hgiven).1 ▸ hcheck
  | first :: second :: rest =>
    have htrees : checkTrees fields max (first :: second :: rest) = .ok () :=
      checkTrees_eq_ok.2 fun filter hfilter => by
        obtain ⟨hempty, hcheck⟩ := h filter hfilter
        rwa [check, hempty] at hcheck
    obtain ⟨parts, hparts⟩ := exists_predicates addressing htrees
    have hor : Operator.ofName? "or" = some .any := rfl
    have hpredicate : Predicate.ofFilter addressing fields (disj (first :: second :: rest)) =
        .ok (.any parts) := by simp [disj, Predicate.ofFilter, hor, hparts, Except.map]
    exact ⟨_, clause?_eq_ok (nonEmpty?_eq_some.2 ⟨rfl, rfl⟩) hpredicate⟩

end Filter

end ViewCompiler
