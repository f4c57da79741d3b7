import ViewCompiler.Filter.Clause
import ViewCompiler.Proofs.KeyMap
import ViewCompiler.Proofs.Result

/-!
# What filters and search clauses mean

A search clause is a `bool` clause over other clauses or a leaf. Which leaf clauses a document
matches is left open: everything here is true of any valuation of them.

* `Clause.holds`: does a document match a clause?
* `Filter.holds`: does it satisfy a filter? A leaf of a filter stands for its clause.
* `Filter.leaves`: the leaves of a filter with their operators.
* `Filter.holds_clause`: **the clause of a filter means what the filter means**, and it scores if
  the filter has a full-text leaf.
-/

namespace ViewCompiler

/-! ### Clauses -/

namespace Clause

/-- The verdict of a `bool` clause on a document, from the verdicts of its clauses: all of the first
list hold, none of the second, and at least `minimum` of the third. A `bool` clause without clauses
holds. -/
def verdict (minimum : Nat) (all none some : List Bool) : Bool :=
  (all.isEmpty && none.isEmpty && some.isEmpty) ||
    (all.all id && !none.any id && decide (minimum ≤ some.count true))

/-- How many of its `should` clauses a `bool` clause asks for. -/
def minimum (members : KeyMap Json) : Nat :=
  match members.get? "minimum_should_match" with
  | some (.number (.int n)) => n.toNat
  | _ => 0

/-- The verdicts that stand under a name. -/
def verdictsAt (verdicts : KeyMap (List Bool)) (name : String) : List Bool :=
  (verdicts.get? name).getD []

section Holds

variable (leaf : Json → Bool)

mutual

/-- Does a document match a clause? `leaf` tells which clauses it matches that are no `bool`
clauses. -/
def holds : Json → Bool
  | .object [("bool", .object members)] =>
    let verdicts := memberVerdicts members
    verdict (minimum members) (verdictsAt verdicts "filter" ++ verdictsAt verdicts "must")
      (verdictsAt verdicts "must_not") (verdictsAt verdicts "should")
  | clause => leaf clause
termination_by structural clause => clause

/-- The verdicts on the clauses in the lists of a `bool` clause, by the names of the lists. -/
def memberVerdicts : List (String × Json) → KeyMap (List Bool)
  | [] => []
  | (name, .array clauses) :: rest => (name, verdicts clauses) :: memberVerdicts rest
  | (name, _) :: rest => (name, []) :: memberVerdicts rest
termination_by structural members => members

/-- The verdicts on the clauses of a list. -/
def verdicts : List Json → List Bool
  | [] => []
  | clause :: rest => holds clause :: verdicts rest
termination_by structural clauses => clauses

end

end Holds

/-- The clauses in a list of a `bool` clause. -/
def listed (members : KeyMap Json) (name : String) : List Json :=
  ((members.get? name).bind Json.items?).getD []

variable {leaf : Json → Bool} {clauses : List Json} {members : KeyMap Json} {name : String}

theorem verdicts_eq_map (clauses : List Json) :
    verdicts leaf clauses = clauses.map (holds leaf) := by
  induction clauses with
  | nil => rfl
  | cons clause rest ih => rw [verdicts, ih, List.map_cons]

theorem verdictsAt_memberVerdicts (members : KeyMap Json) (name : String) :
    verdictsAt (memberVerdicts leaf members) name = (listed members name).map (holds leaf) := by
  induction members with
  | nil => rfl
  | cons member rest ih =>
    obtain ⟨key, value⟩ := member
    by_cases hkey : key = name
    · cases value <;>
        simp [memberVerdicts, verdictsAt, listed, KeyMap.get?_cons, hkey, Json.items?,
          verdicts_eq_map]
    · have hrest : listed ((key, value) :: rest) name = listed rest name := by
        simp [listed, KeyMap.get?_cons, hkey]
      rw [hrest, ← ih]
      cases value <;> simp [memberVerdicts, verdictsAt, KeyMap.get?_cons, hkey]

theorem holds_bool (members : KeyMap Json) :
    holds leaf (single "bool" (.object members)) =
      verdict (minimum members)
        ((listed members "filter" ++ listed members "must").map (holds leaf))
        ((listed members "must_not").map (holds leaf))
        ((listed members "should").map (holds leaf)) := by
  simp only [single, holds, verdictsAt_memberVerdicts, List.map_append]

theorem holds_all (scoring : Bool) (clauses : List Json) :
    holds leaf (single "bool" (single (if scoring then "must" else "filter") (.array clauses))) =
      clauses.all (holds leaf) := by
  rw [single.eq_def (if scoring then "must" else "filter"), holds_bool]
  cases scoring <;> cases clauses <;>
    simp [listed, minimum, verdict, KeyMap.get?_cons, Json.items?]

theorem holds_anyOf (clauses : List Json) :
    holds leaf (anyOf clauses) = (clauses.isEmpty || clauses.any (holds leaf)) := by
  rw [anyOf, Json.ofMembers, holds_bool, Bool.eq_iff_iff]
  simp [listed, minimum, verdict, KeyMap.ofList, KeyMap.empty, KeyMap.get?_insert, Json.items?,
    Json.nat]

end Clause

/-! ### Filters -/

namespace Filter

section Holds

variable (leaf : Json → Bool) (addressing : Addressing) (fields : FieldSet)

mutual

/-- Does a document satisfy a filter? A leaf is satisfied if its clause is matched; `and` and `or`
pass over empty children, and hold without others. -/
def holds : Filter → Bool
  | ⟨field, operation, children, _, value⟩ =>
    match Operator.ofName? operation with
    | none => false
    | some .all => (verdicts children).all id
    | some .any => (verdicts children).isEmpty || (verdicts children).any id
    | some operator =>
      match Column.resolve addressing fields field with
      | .error _ => false
      | .ok column =>
        Clause.holds leaf
          (Clause.ofComparison { column, operator, operation, value := value.getD .null })

/-- The verdicts on the filters that are not empty. -/
def verdicts : List Filter → List Bool
  | [] => []
  | filter :: rest => if filter.isEmpty then verdicts rest else holds filter :: verdicts rest

end

/-- Does a document satisfy a filter that may be missing? An empty one is satisfied. -/
def admits (filter : Option Filter) : Bool :=
  (nonEmpty? filter).all (holds leaf addressing fields)

end Holds

mutual

/-- The leaves of a filter, behind all `and` and `or`, with their operators. -/
def leaves : Filter → List (Filter × Operator)
  | ⟨field, operation, children, valueFrom, value⟩ =>
    match Operator.ofName? operation with
    | none => []
    | some .all | some .any => leavesOf children
    | some operator => [(⟨field, operation, children, valueFrom, value⟩, operator)]

/-- The leaves of the filters. -/
def leavesOf : List Filter → List (Filter × Operator)
  | [] => []
  | filter :: rest => leaves filter ++ leavesOf rest

end

/-- Is one of the leaves of the filter `match` or `match_phrase`? -/
def IsFullText (filter : Filter) : Prop :=
  ∃ leaf ∈ filter.leaves, leaf.2 = .fullText ∨ leaf.2 = .phrase

variable {leaf : Json → Bool} {addressing : Addressing} {fields : FieldSet} {filter : Filter}
  {operator : Operator}

theorem isScoring_iff : operator.isScoring = true ↔ operator = .fullText ∨ operator = .phrase := by
  cases operator <;> simp [Operator.isScoring]

/-! #### By operator -/

theorem operation_of_isEmpty (h : filter.isEmpty = true) :
    Operator.ofName? filter.operation = none := by
  simp only [isEmpty, Bool.and_eq_true, decide_eq_true_eq] at h
  rw [h.1.1.2]
  rfl

theorem leaves_of_isEmpty (h : filter.isEmpty = true) : filter.leaves = [] := by
  have hnone := operation_of_isEmpty h
  obtain ⟨field, operation, children, valueFrom, value⟩ := filter
  rw [leaves, hnone]

section Leaf

variable (hoperator : Operator.ofName? filter.operation = some operator)
  (hleaf : operator.isLogical = false)
include hoperator hleaf

theorem ofFilter_leaf :
    Predicate.ofFilter addressing fields filter =
      (Column.resolve addressing fields filter.field).map fun column =>
        .leaf { column, operator, operation := filter.operation,
                value := filter.value.getD .null } := by
  obtain ⟨field, operation, children, valueFrom, value⟩ := filter
  rw [Predicate.ofFilter, hoperator]
  cases operator with
  | all | any => cases hleaf
  | _ => rfl

theorem holds_leaf {column : Column}
    (hcolumn : Column.resolve addressing fields filter.field = .ok column) :
    filter.holds leaf addressing fields =
      Clause.holds leaf (Clause.ofComparison
        { column, operator, operation := filter.operation,
          value := filter.value.getD .null }) := by
  obtain ⟨field, operation, children, valueFrom, value⟩ := filter
  rw [holds, hoperator, hcolumn]
  cases operator with
  | all | any => cases hleaf
  | _ => rfl

theorem leaves_leaf : filter.leaves = [(filter, operator)] := by
  obtain ⟨field, operation, children, valueFrom, value⟩ := filter
  rw [leaves, hoperator]
  cases operator with
  | all | any => cases hleaf
  | _ => rfl

/-- The clause of a leaf means what the leaf means. -/
theorem holds_clause_leaf {predicate : Predicate}
    (h : Predicate.ofFilter addressing fields filter = .ok predicate) :
    Clause.holds leaf predicate.clause = filter.holds leaf addressing fields ∧
      (predicate.needsScoring = true ↔ filter.IsFullText) := by
  rw [ofFilter_leaf hoperator hleaf] at h
  obtain ⟨column, hcolumn, rfl⟩ := Result.map_eq_ok.1 h
  refine ⟨(holds_leaf hoperator hleaf hcolumn).symm, ?_⟩
  simp only [Predicate.needsScoring, isScoring_iff, IsFullText, leaves_leaf hoperator hleaf,
    List.mem_singleton, exists_eq_left]

end Leaf

/-! #### By structure -/

mutual

/-- **The clause of a filter means what the filter means**, and it scores if the filter has a
full-text leaf. -/
theorem holds_clause {filter : Filter} {predicate : Predicate}
    (h : Predicate.ofFilter addressing fields filter = .ok predicate) :
    Clause.holds leaf predicate.clause = filter.holds leaf addressing fields ∧
      (predicate.needsScoring = true ↔ filter.IsFullText) := by
  match filter with
  | ⟨field, operation, children, valueFrom, value⟩ =>
    cases hoperator : Operator.ofName? operation with
    | none => simp [Predicate.ofFilter, hoperator] at h
    | some operator =>
      by_cases hleaf : operator.isLogical = false
      · exact holds_clause_leaf hoperator hleaf h
      · cases operator with
        | all =>
          simp only [Predicate.ofFilter, hoperator] at h
          obtain ⟨parts, hparts, rfl⟩ := Result.map_eq_ok.1 h
          obtain ⟨hverdicts, hscoring⟩ := holds_clauses hparts
          rw [Predicate.clause, Clause.holds_all]
          simp only [holds, hoperator, ← hverdicts, Predicate.needsScoring, hscoring, IsFullText,
            leaves, List.all_map, Function.id_comp, and_self]
        | any =>
          simp only [Predicate.ofFilter, hoperator] at h
          obtain ⟨parts, hparts, rfl⟩ := Result.map_eq_ok.1 h
          obtain ⟨hverdicts, hscoring⟩ := holds_clauses hparts
          rw [Predicate.clause, Clause.holds_anyOf]
          simp only [holds, hoperator, ← hverdicts, Predicate.needsScoring, hscoring, IsFullText,
            leaves, List.isEmpty_map, List.any_map, Function.id_comp, and_self]
        | _ => exact absurd rfl hleaf

theorem holds_clauses {filters : List Filter} {predicates : List Predicate}
    (h : Predicate.ofFilters addressing fields filters = .ok predicates) :
    (Predicate.clauses predicates).map (Clause.holds leaf) =
        verdicts leaf addressing fields filters ∧
      (Predicate.anyNeedsScoring predicates = true ↔
        ∃ leaf ∈ leavesOf filters, leaf.2 = .fullText ∨ leaf.2 = .phrase) := by
  match filters with
  | [] =>
    obtain rfl := Except.ok.inj h
    simp [Predicate.clauses, Predicate.anyNeedsScoring, verdicts, leavesOf]
  | filter :: rest =>
    rw [Predicate.ofFilters] at h
    by_cases hempty : filter.isEmpty = true
    · rw [if_pos hempty] at h
      simpa only [verdicts, hempty, ↓reduceIte, leavesOf, leaves_of_isEmpty hempty,
        List.nil_append] using holds_clauses h
    · rw [if_neg hempty] at h
      obtain ⟨part, hpart, h⟩ := Result.bind_eq_ok.1 h
      obtain ⟨parts, hparts, h⟩ := Result.bind_eq_ok.1 h
      obtain rfl := Except.ok.inj h
      obtain ⟨hfirst, hscores⟩ := holds_clause hpart
      obtain ⟨hrest, hscoring⟩ := holds_clauses hparts
      simp only [Predicate.clauses, List.map_cons, hfirst, hrest, verdicts, hempty,
        Bool.false_eq_true, ↓reduceIte, Predicate.anyNeedsScoring, Bool.or_eq_true, hscores,
        hscoring, IsFullText, leavesOf, List.mem_append, or_and_right, exists_or, true_and]

end

/-! #### Filters that may be missing -/

theorem nonEmpty?_eq_some {filter : Option Filter} {given : Filter} :
    nonEmpty? filter = some given ↔ filter = some given ∧ given.isEmpty = false := by
  simp [nonEmpty?, Option.filter_eq_some_iff]

theorem IsFullText.isEmpty_eq_false (h : filter.IsFullText) : filter.isEmpty = false := by
  obtain ⟨leaf, hleaf, -⟩ := h
  by_contra hempty
  rw [leaves_of_isEmpty (by simpa using hempty)] at hleaf
  exact List.not_mem_nil hleaf

/-- The clause of a filter that may be missing is the clause of a filter that is not empty. -/
theorem clause?_spec {filter : Option Filter} {clause : Option (Json × Bool)}
    (h : clause? addressing fields filter = .ok clause) :
    clause.all (fun found => Clause.holds leaf found.1) = admits leaf addressing fields filter ∧
      (clause.any Prod.snd = true ↔ ∃ given, filter = some given ∧ given.IsFullText) := by
  rw [clause?] at h
  cases hgiven : nonEmpty? filter with
  | none =>
    rw [hgiven] at h
    obtain rfl := Except.ok.inj h
    refine ⟨by simp [admits, hgiven], by simp, ?_⟩
    rintro ⟨given, rfl, hfull⟩
    have hsome := nonEmpty?_eq_some.2 ⟨rfl, hfull.isEmpty_eq_false⟩
    simp [hgiven] at hsome
  | some given =>
    rw [hgiven] at h
    obtain ⟨predicate, hpredicate, rfl⟩ := Result.map_eq_ok.1 h
    have hclause : Clause.holds leaf predicate.clause = given.holds leaf addressing fields ∧
        (predicate.needsScoring = true ↔ given.IsFullText) := holds_clause hpredicate
    obtain ⟨hholds, hscores⟩ := hclause
    obtain ⟨rfl, -⟩ := nonEmpty?_eq_some.1 hgiven
    simp [admits, hgiven, hholds, hscores]

end Filter

end ViewCompiler
