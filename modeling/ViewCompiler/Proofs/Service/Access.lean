import Mathlib.Data.List.Forall2
import ViewCompiler.Proofs.Service.Refusal

/-!
# Merged access rules as a union

Several access rules together give what each of them gives, in whatever order they stand.

* `AccessRule.Admits`: does a document satisfy the row filter of a rule?
* `AccessRule.Rearranged`: rules in another order, with their names in another order.
* `AccessRule.clause_of_merge`: the clause of the merged filter holds where a rule admits the
  document.
* `AccessRule.merge_eq_union`: **the grant of a list of rules is the union of what the rules give.**
-/

namespace ViewCompiler

namespace AccessRule

variable {fields : FieldSet} {max : Nat} {rules others : List AccessRule} {grant : Grant}
  {addressing : Addressing} {leaf : Json → Bool}

/-- The rule restricts rows, and a document satisfies its filter. -/
def Admits (leaf : Json → Bool) (addressing : Addressing) (fields : FieldSet) (rule : AccessRule) :
    Prop :=
  ∃ filter, rule.restriction? = some filter ∧ filter.holds leaf addressing fields = true

/-! ### Merging -/

theorem merge_eq_ok [Readers] : merge fields max rules = .ok grant ↔
    (∀ rule ∈ rules, ¬rule.Faulty fields max) ∧
      grant = ⟨oneOf (rules.filterMap restriction?),
        fields.narrowedTo (rules.flatMap AccessRule.fields)⟩ := by
  rw [merge, Result.bind_unit_eq_ok, checkAll_eq_ok]
  exact and_congr_right fun _ => ⟨fun h => (Except.ok.inj h).symm, fun h => h ▸ rfl⟩

theorem exists_merge [Readers] :
    (∃ grant, merge fields max rules = .ok grant) ↔ ∀ rule ∈ rules, ¬rule.Faulty fields max := by
  simp only [merge_eq_ok, exists_and_left, exists_eq, and_true]

theorem merge_fails [Readers] :
    (∃ error, merge fields max rules = .error error) ↔ ∃ rule ∈ rules, rule.Faulty fields max := by
  rw [Result.exists_error_iff, exists_merge]
  push Not
  rfl

theorem fields_of_merge [Readers] (h : merge fields max rules = .ok grant) :
    grant.fields = FieldSet.ofList
      (fields.fields.filter fun field => ∃ rule ∈ rules, field.name ∈ rule.fields) := by
  obtain ⟨-, rfl⟩ := merge_eq_ok.1 h
  have hnames (field : Field) : (rules.flatMap AccessRule.fields).contains field.name =
      decide (∃ rule ∈ rules, field.name ∈ rule.fields) := by
    rw [Bool.eq_iff_iff]
    simp
  simp only [FieldSet.narrowedTo, hnames]

theorem filter_eq_none [Readers] (h : merge fields max rules = .ok grant) :
    grant.filter = none ↔ ∀ rule ∈ rules, rule.restriction? = none := by
  obtain ⟨-, rfl⟩ := merge_eq_ok.1 h
  rw [← List.filterMap_eq_nil_iff]
  match rules.filterMap restriction? with
  | [] => simp [oneOf]
  | [_] => simp [oneOf]
  | _ :: _ :: _ => simp [oneOf]

theorem nonEmpty?_oneOf {filters : List Filter} (h : ∀ filter ∈ filters, filter.isEmpty = false)
    (hne : filters ≠ []) : ∃ filter, Filter.nonEmpty? (oneOf filters) = some filter := by
  match filters with
  | [] => exact absurd rfl hne
  | [filter] => exact ⟨filter, Filter.nonEmpty?_eq_some.2 ⟨rfl, h filter List.mem_cons_self⟩⟩
  | first :: second :: rest => exact ⟨_, Filter.nonEmpty?_eq_some.2 ⟨rfl, rfl⟩⟩

/-- The merged filter has a clause if a rule restricts rows, and the clause means that one of the
rules admits a document. -/
theorem clause_of_merge [Readers] (h : merge fields max rules = .ok grant)
    (hrestricts : ∃ rule ∈ rules, rule.restriction? ≠ none) (addressing : Addressing) :
    ∃ clause scoring,
      Filter.clause? addressing fields grant.filter = .ok (some (clause, scoring)) ∧
        ∀ leaf, Clause.holds leaf clause = true ↔
          ∃ rule ∈ rules, rule.Admits leaf addressing fields := by
  obtain ⟨hrules, rfl⟩ := merge_eq_ok.1 h
  have hlegal := legal_restrictions hrules
  have hnonempty := fun filter hfilter => (hlegal filter hfilter).1
  have hne : rules.filterMap restriction? ≠ [] := by
    rw [Ne, List.filterMap_eq_nil_iff]
    push Not
    exact hrestricts
  obtain ⟨filter, hfilter⟩ := nonEmpty?_oneOf hnonempty hne
  obtain ⟨clause, hclause⟩ := Filter.exists_clause_oneOf addressing hlegal
  have hsome := hclause
  rw [Filter.clause?, hfilter] at hsome
  obtain ⟨predicate, -, rfl⟩ := Result.map_eq_ok.1 hsome
  refine ⟨_, _, hclause, fun leaf => ?_⟩
  have hholds : Clause.holds leaf predicate.clause = Filter.admits leaf addressing fields _ :=
    (Filter.clause?_spec hclause).1
  rw [hholds, Filter.admits_oneOf hnonempty]
  simp only [hne, false_or, List.mem_filterMap, Admits]
  grind

/-! ### Rearranging -/

/-- The rules in another order, each with its names in another order. -/
def Rearranged (rules others : List AccessRule) : Prop :=
  ∃ middle, rules.Perm middle ∧
    List.Forall₂ (fun rule other => rule.fields.Perm other.fields ∧
      rule.rowFilter = other.rowFilter) middle others

/-- Rearranging does not change which rules there are, as far as their names are a set. -/
theorem Rearranged.exists_iff (h : Rearranged rules others) {p : AccessRule → Prop}
    (hp : ∀ rule other, rule.fields.Perm other.fields → rule.rowFilter = other.rowFilter →
      (p rule ↔ p other)) :
    (∃ rule ∈ rules, p rule) ↔ ∃ rule ∈ others, p rule := by
  obtain ⟨middle, hperm, hforall⟩ := h
  simp only [hperm.mem_iff]
  clear hperm
  induction hforall with
  | nil => simp
  | cons hrule _ ih => simp only [List.exists_mem_cons_iff, ih, hp _ _ hrule.1 hrule.2]

theorem restriction?_congr {rule other : AccessRule} (h : rule.rowFilter = other.rowFilter) :
    rule.restriction? = other.restriction? := by
  rw [restriction?, restriction?, h]

theorem Rearranged.faulty_iff [Readers] (h : Rearranged rules others) (fields : FieldSet)
    (max : Nat) :
    (∃ rule ∈ rules, rule.Faulty fields max) ↔ ∃ rule ∈ others, rule.Faulty fields max :=
  h.exists_iff fun rule other hfields hfilter => by
    simp only [Faulty, hfields.mem_iff, restriction?_congr hfilter]

theorem Rearranged.named_iff (h : Rearranged rules others) (name : String) :
    (∃ rule ∈ rules, name ∈ rule.fields) ↔ ∃ rule ∈ others, name ∈ rule.fields :=
  h.exists_iff fun _ _ hfields _ => hfields.mem_iff

theorem Rearranged.restricted_iff (h : Rearranged rules others) :
    (∃ rule ∈ rules, rule.restriction? ≠ none) ↔ ∃ rule ∈ others, rule.restriction? ≠ none :=
  h.exists_iff fun _ _ _ hfilter => by rw [restriction?_congr hfilter]

theorem Rearranged.admits_iff (h : Rearranged rules others) :
    (∃ rule ∈ rules, rule.Admits leaf addressing fields) ↔
      ∃ rule ∈ others, rule.Admits leaf addressing fields :=
  h.exists_iff fun _ _ _ hfilter => by simp only [Admits, restriction?_congr hfilter]

theorem Rearranged.holds_eq [Readers] {other : Grant} {clause otherClause : Json × Bool}
    (h : Rearranged rules others) (hgrant : merge fields max rules = .ok grant)
    (hother : merge fields max others = .ok other)
    (hclause : Filter.clause? addressing fields grant.filter = .ok (some clause))
    (hotherClause : Filter.clause? addressing fields other.filter = .ok (some otherClause)) :
    Clause.holds leaf otherClause.1 = Clause.holds leaf clause.1 := by
  by_cases hrestricts : ∃ rule ∈ rules, rule.restriction? ≠ none
  · obtain ⟨found, scoring, hfound, hholds⟩ := clause_of_merge hgrant hrestricts addressing
    obtain ⟨otherFound, otherScoring, hotherFound, hotherHolds⟩ :=
      clause_of_merge hother (h.restricted_iff.1 hrestricts) addressing
    obtain rfl := Option.some.inj (Except.ok.inj (hclause.symm.trans hfound))
    obtain rfl := Option.some.inj (Except.ok.inj (hotherClause.symm.trans hotherFound))
    rw [Bool.eq_iff_iff, hholds, hotherHolds, h.admits_iff]
  · have hnone : grant.filter = none := (filter_eq_none hgrant).2 (by simpa using hrestricts)
    rw [hnone] at hclause
    cases hclause

/-- **The grant of a list of rules is the union of what the rules give.** It fails for a faulty
rule only; the fields are those that a rule names, and the clause of the filter holds where a rule
admits the document. The order of the rules and of their names does not matter. -/
theorem merge_eq_union [Readers] (fields : FieldSet) (max : Nat) (rules : List AccessRule) :
    ((∃ error, merge fields max rules = .error error) ↔
      ∃ rule ∈ rules, rule.Faulty fields max) ∧
    (∀ grant, merge fields max rules = .ok grant →
      grant.fields = FieldSet.ofList
          (fields.fields.filter fun field => ∃ rule ∈ rules, field.name ∈ rule.fields) ∧
        (grant.filter = none ↔ ∀ rule ∈ rules, rule.restriction? = none) ∧
        (grant.filter ≠ none → ∀ addressing, ∃ clause scoring,
          Filter.clause? addressing fields grant.filter = .ok (some (clause, scoring)) ∧
            ∀ leaf, Clause.holds leaf clause = true ↔
              ∃ rule ∈ rules, rule.Admits leaf addressing fields)) ∧
    ∀ others, Rearranged rules others →
      ((∃ grant, merge fields max rules = .ok grant) ↔
        ∃ other, merge fields max others = .ok other) ∧
      ∀ grant other, merge fields max rules = .ok grant → merge fields max others = .ok other →
        other.fields = grant.fields ∧ (other.filter = none ↔ grant.filter = none) ∧
          ∀ addressing clause otherClause,
            Filter.clause? addressing fields grant.filter = .ok (some clause) →
            Filter.clause? addressing fields other.filter = .ok (some otherClause) →
            ∀ leaf, Clause.holds leaf otherClause.1 = Clause.holds leaf clause.1 := by
  refine ⟨merge_fails, fun grant hgrant => ?_, fun others hothers => ⟨?_, ?_⟩⟩
  · refine ⟨fields_of_merge hgrant, filter_eq_none hgrant, fun hne => ?_⟩
    refine clause_of_merge hgrant ?_
    rw [Ne, filter_eq_none hgrant] at hne
    simpa using hne
  · rw [exists_merge, exists_merge]
    simpa using not_congr (hothers.faulty_iff fields max)
  · intro grant other hgrant hother
    refine ⟨?_, ?_, fun _ _ _ hclause hotherClause _ =>
      hothers.holds_eq hgrant hother hclause hotherClause⟩
    · simp only [fields_of_merge hgrant, fields_of_merge hother, hothers.named_iff]
    · rw [filter_eq_none hgrant, filter_eq_none hother]
      simpa using not_congr hothers.restricted_iff.symm

end AccessRule

end ViewCompiler
