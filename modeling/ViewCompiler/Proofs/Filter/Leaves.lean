import ViewCompiler.Filter.Condition
import ViewCompiler.Proofs.Filter.Legality

/-!
# Leaves and comparisons

A predicate is written leaf by leaf, so what is said of its texts comes down to the comparisons that
the leaves of the filter stand for.

* `Predicate.comparisons`: the leaves of a predicate, from the left to the right.
* `Filter.comparison`: the comparison that a leaf of a filter stands for.
* `Filter.mapM_comparison_leaves`: **the comparisons of a predicate are those of the leaves of its
  filter**, in the same order.
* `Filter.LegalLeaf`: what the check of a filter says of one of its leaves.
* `Filter.legal_of_mem_leaves`: every leaf of a legal filter is legal.
-/

namespace ViewCompiler

namespace Predicate

mutual

/-- The comparisons of a predicate, from the left to the right. -/
def comparisons : Predicate → List Comparison
  | .all parts => comparisonsOf parts
  | .any parts => comparisonsOf parts
  | .leaf comparison => [comparison]

/-- The comparisons of the predicates. -/
def comparisonsOf : List Predicate → List Comparison
  | [] => []
  | part :: rest => comparisons part ++ comparisonsOf rest

end

end Predicate

namespace Filter

variable {addressing : Addressing} {fields : FieldSet} {max : Nat} {filter : Filter}
  {operator : Operator}

/-! ### Comparisons -/

/-- The comparison that a leaf stands for. -/
def comparison (addressing : Addressing) (fields : FieldSet) (leaf : Filter × Operator) :
    Except FilterError Comparison :=
  (Column.resolve addressing fields leaf.1.field).map fun column =>
    { column, operator := leaf.2, operation := leaf.1.operation,
      value := leaf.1.value.getD .null }

theorem comparison_leaf {predicate : Predicate}
    (hoperator : Operator.ofName? filter.operation = some operator)
    (hleaf : operator.isLogical = false)
    (h : Predicate.ofFilter addressing fields filter = .ok predicate) :
    ∃ found, comparison addressing fields (filter, operator) = .ok found ∧
      predicate = .leaf found := by
  rw [ofFilter_leaf hoperator hleaf] at h
  obtain ⟨column, hcolumn, rfl⟩ := Result.map_eq_ok.1 h
  exact ⟨_, by rw [comparison, hcolumn, Except.map], rfl⟩

theorem leaves_logical {field operation valueFrom : String} {children : List Filter}
    {value : Option Json} (hoperator : Operator.ofName? operation = some operator)
    (hlogical : operator.isLogical = true) :
    leaves ⟨field, operation, children, valueFrom, value⟩ = leavesOf children := by
  rw [leaves, hoperator]
  cases operator with
  | all | any => rfl
  | _ => cases hlogical

theorem ofFilter_logical {field operation valueFrom : String} {children : List Filter}
    {value : Option Json} {predicate : Predicate}
    (hoperator : Operator.ofName? operation = some operator)
    (hlogical : operator.isLogical = true)
    (h : Predicate.ofFilter addressing fields ⟨field, operation, children, valueFrom, value⟩ =
      .ok predicate) :
    ∃ parts, Predicate.ofFilters addressing fields children = .ok parts ∧
      (operator = .all ∧ predicate = .all parts ∨ operator = .any ∧ predicate = .any parts) := by
  rw [Predicate.ofFilter, hoperator] at h
  cases operator with
  | all =>
    obtain ⟨parts, hparts, rfl⟩ := Result.map_eq_ok.1 h
    exact ⟨parts, hparts, .inl ⟨rfl, rfl⟩⟩
  | any =>
    obtain ⟨parts, hparts, rfl⟩ := Result.map_eq_ok.1 h
    exact ⟨parts, hparts, .inr ⟨rfl, rfl⟩⟩
  | _ => cases hlogical

mutual

/-- **The comparisons of a predicate are those of the leaves of its filter.** -/
theorem mapM_comparison_leaves {filter : Filter} {predicate : Predicate}
    (h : Predicate.ofFilter addressing fields filter = .ok predicate) :
    filter.leaves.mapM (comparison addressing fields) = .ok predicate.comparisons := by
  match filter with
  | ⟨field, operation, children, valueFrom, value⟩ =>
    cases hoperator : Operator.ofName? operation with
    | none => simp [Predicate.ofFilter, hoperator] at h
    | some operator =>
      cases hlogical : operator.isLogical with
      | false =>
        obtain ⟨found, hfound, rfl⟩ := comparison_leaf hoperator hlogical h
        rw [leaves_leaf hoperator hlogical, List.mapM_cons, hfound]
        rfl
      | true =>
        obtain ⟨parts, hparts, ⟨-, rfl⟩ | ⟨-, rfl⟩⟩ := ofFilter_logical hoperator hlogical h <;>
          simpa only [leaves_logical hoperator hlogical, Predicate.comparisons] using
            mapM_comparison_leavesOf hparts

theorem mapM_comparison_leavesOf {filters : List Filter} {predicates : List Predicate}
    (h : Predicate.ofFilters addressing fields filters = .ok predicates) :
    (leavesOf filters).mapM (comparison addressing fields) =
      .ok (Predicate.comparisonsOf predicates) := by
  match filters with
  | [] =>
    obtain rfl := Except.ok.inj h
    rfl
  | filter :: rest =>
    rw [Predicate.ofFilters] at h
    by_cases hempty : filter.isEmpty = true
    · rw [if_pos hempty] at h
      simpa only [leavesOf, leaves_of_isEmpty hempty, List.nil_append] using
        mapM_comparison_leavesOf h
    · rw [if_neg hempty] at h
      obtain ⟨part, hpart, h⟩ := Result.bind_eq_ok.1 h
      obtain ⟨parts, hparts, h⟩ := Result.bind_eq_ok.1 h
      obtain rfl := Except.ok.inj h
      rw [leavesOf, List.mapM_append, mapM_comparison_leaves hpart,
        mapM_comparison_leavesOf hparts]
      rfl

end

/-! ### Legal leaves -/

/-- A leaf that the check of filters lets pass over the fields. -/
structure LegalLeaf [Readers] (fields : FieldSet) (leaf : Filter × Operator) : Prop where
  isLogical : leaf.2.isLogical = false
  operator? : Operator.ofName? leaf.1.operation = some leaf.2
  value : checkValue leaf.1 leaf.2 = .ok ()
  field : checkField fields leaf.1 leaf.2 = .ok ()

namespace LegalLeaf

variable [Readers] {leaf : Filter × Operator} (h : LegalLeaf fields leaf)
include h

theorem suitable (hvalue : leaf.2.takesNoValue = false) :
    checkSingle leaf.1 leaf.2 = .ok () ∧ checkPattern leaf.1 leaf.2 = .ok () ∧
      checkList leaf.1 leaf.2 = .ok () := by
  have hcheck := h.value
  rw [checkValue, if_neg (by simp [hvalue])] at hcheck
  obtain ⟨-, hcheck⟩ := Result.bind_unit_eq_ok.1 hcheck
  obtain ⟨hsingle, hcheck⟩ := Result.bind_unit_eq_ok.1 hcheck
  exact ⟨hsingle, Result.bind_unit_eq_ok.1 hcheck⟩

theorem isContainer_eq_false (hsingle : leaf.2.takesSingleValue = true) :
    (leaf.1.value.getD .null).isContainer = false := by
  have hvalue : leaf.2.takesNoValue = false := by
    revert hsingle
    cases leaf.2 <;> simp [Operator.takesSingleValue, Operator.takesNoValue]
  have hcheck := (h.suitable hvalue).1
  rw [checkSingle] at hcheck
  simpa [hsingle] using require_eq_ok.1 (Result.bind_unit_eq_ok.1 hcheck).1

theorem exists_items (hlist : leaf.2 = .isIn ∨ leaf.2 = .notIn) :
    ∃ items, leaf.1.value = some (.array items) := by
  have hcheck := (h.suitable (by rcases hlist with h | h <;> rw [h] <;> rfl)).2.2
  have hcount : 0 < ((leaf.1.value.getD .null).items?.getD []).length := by
    rcases hlist with hlist | hlist <;>
      simpa [checkList, hlist, require_eq_ok] using hcheck
  cases hvalue : leaf.1.value with
  | none => simp [hvalue, Json.items?] at hcount
  | some value =>
    rw [hvalue] at hcount
    cases value with
    | array items => exact ⟨items, rfl⟩
    | _ => simp [Json.items?] at hcount

theorem exists_bounds (hrange : leaf.2 = .range ∨ leaf.2 = .outRange ∨ leaf.2 = .between) :
    ∃ lower upper, leaf.1.value = some (.array [lower, upper]) := by
  have hcheck := (h.suitable (by rcases hrange with h | h | h <;> rw [h] <;> rfl)).2.2
  have hcount : ((leaf.1.value.getD .null).items?.getD []).length = 2 := by
    rcases hrange with hrange | hrange | hrange <;>
      simpa [checkList, hrange, require_eq_ok] using hcheck
  cases hvalue : leaf.1.value with
  | none => simp [hvalue, Json.items?] at hcount
  | some value =>
    rw [hvalue] at hcount
    cases value with
    | array items =>
      obtain ⟨lower, upper, rfl⟩ := List.length_eq_two.1 hcount
      exact ⟨lower, upper, rfl⟩
    | _ => simp [Json.items?] at hcount

theorem exists_offset (hbefore : leaf.2 = .before) :
    ∃ amount unit, leaf.1.value = some (.array [.number amount, .string unit]) := by
  have hcheck := (h.suitable (by rw [hbefore]; rfl)).2.2
  have hoffset : isOffset (leaf.1.value.getD .null) = true := by
    simpa [checkList, hbefore, require_eq_ok] using hcheck
  cases hvalue : leaf.1.value with
  | none => simp [hvalue, isOffset] at hoffset
  | some value =>
    rw [hvalue] at hoffset
    change isOffset value = true at hoffset
    unfold isOffset at hoffset
    split at hoffset
    · exact ⟨_, _, rfl⟩
    · cases hoffset

/-- The column of a leaf is that of its field, unless a full-text operator reaches every field. -/
theorem resolve_cases (addressing : Addressing) :
    leaf.1.field = allFields ∧ leaf.2.isScoring = true ∧
        Column.resolve addressing fields leaf.1.field = .ok Column.all ∨
      ∃ field, leaf.1.field ≠ allFields ∧ fields.get? leaf.1.field = some field ∧
        Column.resolve addressing fields leaf.1.field = .ok (.ofField addressing field) := by
  have hcheck := h.field
  rw [checkField] at hcheck
  split at hcheck
  · next hall => exact .inl ⟨hall, require_eq_ok.1 hcheck, if_pos hall⟩
  · next hall =>
    split at hcheck
    · cases hcheck
    · next field hfield =>
      exact .inr ⟨field, hall, hfield, by rw [Column.resolve, if_neg hall, hfield]⟩

end LegalLeaf

mutual

theorem legal_of_mem_leaves [Readers] {filter : Filter} (h : checkTree fields max filter = .ok ())
    {leaf : Filter × Operator} (hleaf : leaf ∈ filter.leaves) : LegalLeaf fields leaf := by
  match filter with
  | ⟨field, operation, children, valueFrom, value⟩ =>
    rw [checkTree] at h
    obtain ⟨-, h⟩ := Result.bind_unit_eq_ok.1 h
    obtain ⟨-, h⟩ := Result.bind_unit_eq_ok.1 h
    cases hoperator : Operator.ofName? operation with
    | none => simp [hoperator] at h
    | some operator =>
      simp only [hoperator] at h
      split at h
      · next hlogical =>
        obtain ⟨-, h⟩ := Result.bind_unit_eq_ok.1 h
        rw [leaves_logical hoperator hlogical] at hleaf
        exact legal_of_mem_leavesOf h hleaf
      · next hlogical =>
        have hlogical : operator.isLogical = false := by simpa using hlogical
        rw [leaves_leaf hoperator hlogical, List.mem_singleton] at hleaf
        obtain ⟨-, h⟩ := Result.bind_unit_eq_ok.1 h
        obtain ⟨hvalue, hfield⟩ := Result.bind_unit_eq_ok.1 h
        subst hleaf
        exact ⟨hlogical, hoperator, hvalue, hfield⟩

theorem legal_of_mem_leavesOf [Readers] {filters : List Filter}
    (h : checkTrees fields max filters = .ok ()) {leaf : Filter × Operator}
    (hleaf : leaf ∈ leavesOf filters) : LegalLeaf fields leaf := by
  match filters with
  | [] => exact absurd hleaf List.not_mem_nil
  | filter :: rest =>
    obtain ⟨hfilter, hrest⟩ := Result.bind_unit_eq_ok.1 h
    rcases List.mem_append.1 hleaf with hleaf | hleaf
    · exact legal_of_mem_leaves hfilter hleaf
    · exact legal_of_mem_leavesOf hrest hleaf

end

end Filter

end ViewCompiler
