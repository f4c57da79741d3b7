import ViewCompiler.Proofs.Filter.Atoms
import ViewCompiler.Proofs.Filter.Condition
import ViewCompiler.Proofs.Sql.Connective
import ViewCompiler.Readers.Standard

/-!
# Clause and condition agree

A filter is written twice, as a search clause and as an SQL condition. Both are read here over the
same atoms: the renderings of the leaves, each with the truth value of its leaf.

* `Filter.evaluate`: the value of a filter over the truth values of its leaves.
* `Predicate.eq_of_means`: the clause of a predicate has no other value.
* `Predicate.exists_word`: the condition of a predicate spells a word with this value.
* `Filter.renderings_agree`: **both renderings of a legal filter have the value of the filter, and
  no other**.
-/

namespace ViewCompiler

/-! ### Truth values of leaves -/

section Valued

variable {α : Type} {truth : Nat → Bool} {first : Nat}

/-- The items with their truth values, where `first` items come before. -/
def valued (truth : Nat → Bool) (first : Nat) (items : List α) : List (α × Bool) :=
  (items.zipIdx first).map fun item => (item.1, truth item.2)

theorem valued_append (items others : List α) :
    valued truth first (items ++ others) =
      valued truth first items ++ valued truth (first + items.length) others := by
  rw [valued, List.zipIdx_append, List.map_append]
  rfl

theorem mem_of_mem_valued {items : List α} {found : α × Bool}
    (h : found ∈ valued truth first items) : found.1 ∈ items := by
  obtain ⟨item, hitem, rfl⟩ := List.mem_map.1 h
  exact (List.mem_zipIdx hitem).2.2 ▸ List.getElem_mem _

end Valued

namespace Predicate

mutual

/-- The value of a predicate over the truth values of its comparisons, where `first` comparisons
come before. -/
def evaluate (truth : Nat → Bool) : Nat → Predicate → Bool
  | first, .all parts => (evaluateAll truth first parts).all id
  | first, .any parts =>
    (evaluateAll truth first parts).isEmpty || (evaluateAll truth first parts).any id
  | first, .leaf _ => truth first

/-- The values of the predicates. -/
def evaluateAll (truth : Nat → Bool) : Nat → List Predicate → List Bool
  | _, [] => []
  | first, part :: rest =>
    evaluate truth first part :: evaluateAll truth (first + part.comparisons.length) rest

end

end Predicate

namespace Filter

mutual

/-- The value of a filter over the truth values of its leaves, where `first` leaves come before;
`and` and `or` without children hold. -/
def evaluate (truth : Nat → Bool) : Nat → Filter → Bool
  | first, ⟨_, operation, children, _, _⟩ =>
    match Operator.ofName? operation with
    | none => true
    | some .all => (evaluateAll truth first children).all id
    | some .any =>
      (evaluateAll truth first children).isEmpty || (evaluateAll truth first children).any id
    | some _ => truth first

/-- The values of the filters. -/
def evaluateAll (truth : Nat → Bool) : Nat → List Filter → List Bool
  | _, [] => []
  | first, filter :: rest =>
    evaluate truth first filter :: evaluateAll truth (first + filter.leaves.length) rest

end

variable {addressing : Addressing} {fields : FieldSet} {max : Nat} {truth : Nat → Bool}

theorem length_leaves {filter : Filter} {predicate : Predicate}
    (h : Predicate.ofFilter addressing fields filter = .ok predicate) :
    filter.leaves.length = predicate.comparisons.length :=
  (Result.length_mapM (mapM_comparison_leaves h)).symm

theorem isEmpty_eq_false_of_ofFilter {filter : Filter} {predicate : Predicate}
    (h : Predicate.ofFilter addressing fields filter = .ok predicate) :
    filter.isEmpty = false := by
  by_contra hempty
  have hnone := operation_of_isEmpty (by simpa using hempty)
  obtain ⟨field, operation, children, valueFrom, value⟩ := filter
  rw [Predicate.ofFilter, hnone] at h
  cases h

mutual

theorem evaluate_eq [Readers] {first : Nat} {filter : Filter} {predicate : Predicate}
    (hlegal : checkTree fields max filter = .ok ())
    (h : Predicate.ofFilter addressing fields filter = .ok predicate) :
    evaluate truth first filter = predicate.evaluate truth first := by
  match filter with
  | ⟨field, operation, children, valueFrom, value⟩ =>
    rw [checkTree] at hlegal
    obtain ⟨-, hlegal⟩ := Result.bind_unit_eq_ok.1 hlegal
    obtain ⟨-, hlegal⟩ := Result.bind_unit_eq_ok.1 hlegal
    cases hoperator : Operator.ofName? operation with
    | none => simp [hoperator] at hlegal
    | some operator =>
      simp only [hoperator] at hlegal
      split at hlegal
      · next hlogical =>
        obtain ⟨-, hlegal⟩ := Result.bind_unit_eq_ok.1 hlegal
        obtain ⟨parts, hparts, ⟨rfl, rfl⟩ | ⟨rfl, rfl⟩⟩ :=
          ofFilter_logical hoperator hlogical h <;>
          simp only [evaluate, hoperator, Predicate.evaluate, evaluateAll_eq hlegal hparts]
      · next hlogical =>
        have hlogical : operator.isLogical = false := by simpa using hlogical
        obtain ⟨found, -, rfl⟩ := comparison_leaf hoperator hlogical h
        rw [evaluate, hoperator, Predicate.evaluate]
        cases operator with
        | all | any => cases hlogical
        | _ => rfl

theorem evaluateAll_eq [Readers] {first : Nat} {filters : List Filter} {predicates : List Predicate}
    (hlegal : checkTrees fields max filters = .ok ())
    (h : Predicate.ofFilters addressing fields filters = .ok predicates) :
    evaluateAll truth first filters = Predicate.evaluateAll truth first predicates := by
  match filters with
  | [] =>
    obtain rfl := Except.ok.inj h
    rfl
  | filter :: rest =>
    obtain ⟨hfilter, hrest⟩ := Result.bind_unit_eq_ok.1 hlegal
    obtain ⟨found, hfound⟩ := exists_predicate addressing hfilter
    rw [Predicate.ofFilters, isEmpty_eq_false_of_ofFilter hfound] at h
    simp only [Bool.false_eq_true, ↓reduceIte, Result.bind_eq_ok] at h
    obtain ⟨part, hpart, parts, hparts, h⟩ := h
    obtain rfl := Except.ok.inj h
    rw [evaluateAll, Predicate.evaluateAll, evaluate_eq hfilter hpart, length_leaves hpart,
      evaluateAll_eq hrest hparts]

end

end Filter

/-! ### The clause -/

namespace Predicate

variable {truth : Nat → Bool}

mutual

/-- The clause of a predicate can be read over the clauses of its comparisons, with the value of the
predicate. -/
theorem means_clause (predicate : Predicate) (first : Nat) :
    Clause.Means (valued truth first (predicate.comparisons.map Clause.ofComparison))
      predicate.clause (predicate.evaluate truth first) := by
  match predicate with
  | .leaf comparison => exact .atom _ _
  | .all parts =>
    exact ((Clause.joins_all _ _).means _ _).2 (.inr ⟨_, meanAll_clauses parts first, rfl⟩)
  | .any parts =>
    exact ((Clause.joins_anyOf _).means _ _).2 (.inr ⟨_, meanAll_clauses parts first, rfl⟩)

theorem meanAll_clauses (predicates : List Predicate) (first : Nat) :
    Clause.MeanAll (valued truth first ((comparisonsOf predicates).map Clause.ofComparison))
      (clauses predicates) (evaluateAll truth first predicates) := by
  match predicates with
  | [] => exact .nil
  | part :: rest =>
    rw [comparisonsOf, List.map_append, valued_append, List.length_map]
    exact .cons (means_clause part first) (meanAll_clauses rest _)

end

theorem needsAtom_of_mem_valued {first : Nat} {comparisons : List Comparison}
    (hleaves : ∀ comparison ∈ comparisons, comparison.operator.isLogical = false)
    {atom : Json × Bool} (h : atom ∈ valued truth first (comparisons.map Clause.ofComparison)) :
    Clause.NeedsAtom atom.1 := by
  obtain ⟨comparison, hcomparison, hclause⟩ := List.mem_map.1 (mem_of_mem_valued h)
  exact hclause ▸ Clause.needsAtom_ofComparison (hleaves comparison hcomparison)

mutual

/-- **The clause of a predicate has no other value than the predicate**, when it is read over the
clauses of its comparisons. -/
theorem eq_of_means (predicate : Predicate) {first : Nat}
    (hleaves : ∀ comparison ∈ predicate.comparisons, comparison.operator.isLogical = false)
    {found more rest : List (Json × Bool)} {value : Bool}
    (hrest : ∀ atom ∈ rest, Clause.NeedsAtom atom.1)
    (h : Clause.Means found predicate.clause value)
    (hfound : found ++ more =
      valued truth first (predicate.comparisons.map Clause.ofComparison) ++ rest) :
    found = valued truth first (predicate.comparisons.map Clause.ofComparison) ∧
      value = predicate.evaluate truth first := by
  match predicate with
  | .leaf comparison =>
    exact Clause.eq_of_means_atom
      (Clause.needsAtom_ofComparison (hleaves comparison List.mem_cons_self)) h hfound
  | .all parts =>
    exact (Clause.joins_all _ _).eq_of_means (meanAll_clauses parts first) hrest
      (fun values hvalues => eq_of_meanAll parts hleaves hrest hvalues hfound) h hfound
  | .any parts =>
    exact (Clause.joins_anyOf _).eq_of_means (meanAll_clauses parts first) hrest
      (fun values hvalues => eq_of_meanAll parts hleaves hrest hvalues hfound) h hfound

theorem eq_of_meanAll (predicates : List Predicate) {first : Nat}
    (hleaves : ∀ comparison ∈ comparisonsOf predicates, comparison.operator.isLogical = false)
    {found more rest : List (Json × Bool)} {values : List Bool}
    (hrest : ∀ atom ∈ rest, Clause.NeedsAtom atom.1)
    (h : Clause.MeanAll found (clauses predicates) values)
    (hfound : found ++ more =
      valued truth first ((comparisonsOf predicates).map Clause.ofComparison) ++ rest) :
    found = valued truth first ((comparisonsOf predicates).map Clause.ofComparison) ∧
      values = evaluateAll truth first predicates := by
  match predicates with
  | [] => exact Clause.meanAll_nil.1 h
  | part :: others =>
    rw [comparisonsOf, List.forall_mem_append] at hleaves
    rw [comparisonsOf, List.map_append, valued_append, List.length_map] at hfound ⊢
    rw [clauses] at h
    cases h with
    | cons hpart hothers =>
      rw [List.append_assoc, List.append_assoc] at hfound
      have hbehind : ∀ atom ∈ valued truth (first + part.comparisons.length)
          ((comparisonsOf others).map Clause.ofComparison) ++ rest, Clause.NeedsAtom atom.1 :=
        List.forall_mem_append.2 ⟨fun _ => needsAtom_of_mem_valued hleaves.2, hrest⟩
      obtain ⟨rfl, rfl⟩ := eq_of_means part hleaves.1 hbehind hpart hfound
      obtain ⟨rfl, rfl⟩ := eq_of_meanAll others hleaves.2 hrest hothers
        (List.append_cancel_left hfound)
      exact ⟨rfl, rfl⟩

end

end Predicate

/-! ### The condition -/

/-- The condition of a comparison starts with a quoted name, with one behind a parenthesis, or with
the name of a function. -/
theorem Comparison.recognizable_condition {comparison : Comparison} {text : String}
    (h : comparison.condition = .ok text) : Sql.Recognizable text.toList := by
  have hname (name : String) (rest : List Char) :
      Sql.Recognizable ((Sql.quoteIdent name).toList ++ rest) := by
    rw [Sql.quoteIdent, String.toList_ofList]
    exact .name _
  have hgroup (name : String) (rest : List Char) :
      Sql.Recognizable ("(".toList ++ ((Sql.quoteIdent name).toList ++ rest)) := by
    rw [Sql.quoteIdent, String.toList_ofList]
    simpa [Sql.enclosed] using Sql.Recognizable.group _
  have hcall (rest : List Char) : Sql.Recognizable ("regexp_like(".toList ++ rest) := by
    simpa using Sql.Recognizable.call _
  rw [condition] at h
  split at h
  · cases h
  cases hoperator : comparison.operator <;> simp only [hoperator] at h
  case fullText | phrase | all | any => cases h
  case eq | notEq | gt | gte | lt | lte | isIn | notIn =>
    obtain ⟨literals, -, rfl⟩ := Result.map_eq_ok.1 h
    simpa only [String.toList_append, List.append_assoc] using hname _ _
  case range | between =>
    obtain ⟨lower, -, h⟩ := Result.bind_eq_ok.1 h
    obtain ⟨upper, -, h⟩ := Result.bind_eq_ok.1 h
    obtain rfl := Except.ok.inj h
    simpa only [String.toList_append, List.append_assoc] using hname _ _
  case outRange =>
    obtain ⟨lower, -, h⟩ := Result.bind_eq_ok.1 h
    obtain ⟨upper, -, h⟩ := Result.bind_eq_ok.1 h
    obtain rfl := Except.ok.inj h
    simpa only [String.toList_append, List.append_assoc] using hgroup _ _
  case notEmpty =>
    obtain rfl := Except.ok.inj h
    simpa only [String.toList_append, List.append_assoc] using hgroup _ _
  case regex =>
    obtain rfl := Except.ok.inj h
    simpa only [String.toList_append, List.append_assoc] using hcall _
  all_goals
    obtain rfl := Except.ok.inj h
    simpa only [String.toList_append, List.append_assoc] using hname _ _

namespace Predicate

variable {truth : Nat → Bool}

/-- Joined conditions are an operand, if the conditions are. -/
theorem exists_operand_joined {connective : Sql.Part} (separator : String)
    (join : List Bool → Bool) (hseparator : connective.text = separator.toList)
    (hconnective : connective.atom? = none) (hnone : join [] = true)
    {words : List (List Sql.Part)} {texts : List String} {values : List Bool}
    (hwhole : words ≠ [] → Sql.Disjunction (Sql.joined connective words) (join values))
    (htexts : words.map Sql.spelled = texts.map String.toList)
    (hvalues : List.Forall₂ Sql.Operand words values) :
    ∃ word, Sql.spelled word = (joined separator texts).toList ∧
      Sql.atoms word = words.flatMap Sql.atoms ∧ Sql.Operand word (join values) := by
  cases hvalues with
  | nil =>
    obtain rfl : texts = [] := List.map_eq_nil_iff.1 htexts.symm
    exact ⟨[.always], by simp [joined, Sql.spelled, Sql.Part.text], rfl, hnone ▸ .always⟩
  | @cons word value words values hword hrest =>
    cases hrest with
    | nil =>
      obtain ⟨text, others, rfl, htext, hothers⟩ := List.map_eq_cons_iff.1 htexts.symm
      obtain rfl : others = [] := List.map_eq_nil_iff.1 hothers
      -- a condition on its own stands without parentheses
      rw [Sql.eq_of_disjunction (hwhole (by simp)) (.conjunction (.operand hword))]
      exact ⟨word, htext.symm, by simp, hword⟩
    | @cons second _ words _ hsecond hmore =>
      obtain ⟨text, others, rfl, -, hothers⟩ := List.map_eq_cons_iff.1 htexts.symm
      obtain ⟨next, others, rfl, -, -⟩ := List.map_eq_cons_iff.1 hothers
      refine ⟨.opening :: (Sql.joined connective (word :: second :: words) ++ [.closing]), ?_, ?_,
        .group (hwhole (by simp))⟩
      · rw [Sql.spelled_cons, Sql.spelled_append, Sql.spelled_joined hseparator htexts, joined,
          String.toList_append, String.toList_append]
        · simp [Sql.spelled, Sql.Part.text]
        all_goals simp
      · rw [Sql.atoms_cons, Sql.atoms_append, Sql.atoms_joined hconnective]
        simp [Sql.atoms, Sql.Part.atom?]

variable (truth : Nat → Bool)

mutual

/-- **The condition of a predicate spells a word with the value of the predicate**, over the
conditions of its comparisons. -/
theorem exists_word (predicate : Predicate) (first : Nat) {text : String}
    (h : predicate.condition = .ok text) :
    ∃ fragments word, predicate.comparisons.mapM Comparison.condition = .ok fragments ∧
      Sql.spelled word = text.toList ∧
      Sql.atoms word = valued truth first (fragments.map String.toList) ∧
      Sql.Operand word (predicate.evaluate truth first) := by
  match predicate with
  | .leaf comparison =>
    refine ⟨[text], [.atom text.toList (truth first)], ?_, by simp [Sql.spelled, Sql.Part.text],
      rfl, .atom _ _⟩
    rw [condition] at h
    rw [comparisons, List.mapM_cons, h]
    rfl
  | .all parts =>
    rw [condition] at h
    obtain ⟨texts, htexts, rfl⟩ := Result.map_eq_ok.1 h
    obtain ⟨fragments, words, hfragments, hspelled, hatoms, hwords⟩ :=
      exists_words parts first htexts
    have hjoined : words ≠ [] → Sql.Disjunction (Sql.joined .and words)
        ((evaluateAll truth first parts).all id) :=
      fun hne => .conjunction (Sql.conjunction_joined hwords hne)
    obtain ⟨word, hword, hsame, hoperand⟩ := exists_operand_joined " AND "
      (fun values => values.all id) (by simp [Sql.Part.text]) rfl rfl hjoined hspelled hwords
    exact ⟨fragments, word, hfragments, hword, hsame.trans hatoms, hoperand⟩
  | .any parts =>
    rw [condition] at h
    obtain ⟨texts, htexts, rfl⟩ := Result.map_eq_ok.1 h
    obtain ⟨fragments, words, hfragments, hspelled, hatoms, hwords⟩ :=
      exists_words parts first htexts
    have hjoined : words ≠ [] → Sql.Disjunction (Sql.joined .or words)
        ((evaluateAll truth first parts).isEmpty || (evaluateAll truth first parts).any id) := by
      intro hne
      have hvalues : (evaluateAll truth first parts).isEmpty = false := by
        refine List.isEmpty_eq_false_iff.2 fun hnil => hne ?_
        rw [hnil] at hwords
        cases hwords
        rfl
      rw [hvalues, Bool.false_or]
      exact Sql.disjunction_joined hwords hne
    obtain ⟨word, hword, hsame, hoperand⟩ := exists_operand_joined " OR "
      (fun values => values.isEmpty || values.any id) (by simp [Sql.Part.text]) rfl rfl hjoined
      hspelled hwords
    exact ⟨fragments, word, hfragments, hword, hsame.trans hatoms, hoperand⟩

theorem exists_words (predicates : List Predicate) (first : Nat) {texts : List String}
    (h : conditions predicates = .ok texts) :
    ∃ fragments words,
      (comparisonsOf predicates).mapM Comparison.condition = .ok fragments ∧
      words.map Sql.spelled = texts.map String.toList ∧
      words.flatMap Sql.atoms = valued truth first (fragments.map String.toList) ∧
      List.Forall₂ Sql.Operand words (evaluateAll truth first predicates) := by
  match predicates with
  | [] =>
    obtain rfl := Except.ok.inj h
    exact ⟨[], [], rfl, rfl, rfl, .nil⟩
  | part :: rest =>
    rw [conditions] at h
    obtain ⟨text, htext, h⟩ := Result.bind_eq_ok.1 h
    obtain ⟨others, hothers, h⟩ := Result.bind_eq_ok.1 h
    obtain rfl := Except.ok.inj h
    obtain ⟨fragments, word, hfragments, hspelled, hatoms, hoperand⟩ := exists_word part first htext
    obtain ⟨behind, words, hbehind, hspelledAll, hatomsAll, hoperands⟩ :=
      exists_words rest (first + part.comparisons.length) hothers
    refine ⟨fragments ++ behind, word :: words, ?_, ?_, ?_, .cons hoperand hoperands⟩
    · rw [comparisonsOf, List.mapM_append, hfragments, hbehind]
      rfl
    · rw [List.map_cons, List.map_cons, hspelled, hspelledAll]
    · rw [List.flatMap_cons, hatoms, hatomsAll, List.map_append, valued_append, List.length_map,
        Result.length_mapM hfragments]

end

end Predicate

/-! ### Both renderings -/

namespace Filter

/-- A clause that may be missing has the value, over these atoms; a missing one holds. -/
def ClauseMeans (atoms : List (Json × Bool)) (clause : Option (Json × Bool)) (value : Bool) :
    Prop :=
  match clause with
  | none => value = true
  | some found => Clause.Means atoms found.1 value

/-- A condition that may be missing has the value, over these atoms; a missing one holds. -/
def ConditionMeans (atoms : List (List Char × Bool)) (condition : Option String) (value : Bool) :
    Prop :=
  match condition with
  | none => value = true
  | some text => Sql.Means atoms text.toList value

variable {addressing : Addressing} {fields : FieldSet} {max : Nat} {filter : Filter}

theorem isLogical_of_mem_comparisons [Readers] {comparisons : List Comparison}
    (hlegal : checkTree fields max filter = .ok ())
    (hcomparisons : filter.leaves.mapM (comparison addressing fields) = .ok comparisons) :
    ∀ comparison ∈ comparisons, comparison.operator.isLogical = false := by
  intro found hfound
  obtain ⟨leaf, hleaf, hcomparison⟩ := Result.exists_of_mem_mapM_ok hcomparisons hfound
  obtain ⟨column, -, rfl⟩ := Result.map_eq_ok.1 hcomparison
  exact (legal_of_mem_leaves hlegal hleaf).isLogical

theorem evaluate_of_isEmpty (truth : Nat → Bool) (h : filter.isEmpty = true) :
    evaluate truth 0 filter = true := by
  have hnone := operation_of_isEmpty h
  obtain ⟨field, operation, children, valueFrom, value⟩ := filter
  rw [evaluate, hnone]

/-- **The clause and the condition of a legal filter agree**: read over the renderings of the
leaves, whose truth values are any, both have the value of the filter and no other. -/
theorem renderings_agree [Readers] (truth : Nat → Bool) {condition : Option String}
    (hlegal : filter.check fields max = .ok ())
    (hcondition : condition? addressing fields (some filter) = .ok condition) :
    ∃ clause comparisons fragments,
      clause? addressing fields (some filter) = .ok clause ∧
      filter.leaves.mapM (comparison addressing fields) = .ok comparisons ∧
      comparisons.mapM Comparison.condition = .ok fragments ∧
      ∀ value,
        (ClauseMeans (valued truth 0 (comparisons.map Clause.ofComparison)) clause value ↔
          value = evaluate truth 0 filter) ∧
        (ConditionMeans (valued truth 0 (fragments.map String.toList)) condition value ↔
          value = evaluate truth 0 filter) := by
  obtain ⟨hempty, hnone⟩ | ⟨-, hgiven, htree, predicate, hpredicate, heq, hcomparisons⟩ :=
    cases_of_check addressing hlegal
  · rw [condition?, hnone] at hcondition
    obtain rfl := Except.ok.inj hcondition
    refine ⟨none, [], [], by rw [clause?, hnone], by rw [leaves_of_isEmpty hempty]; rfl, rfl, ?_⟩
    simp [ClauseMeans, ConditionMeans, evaluate_of_isEmpty truth hempty]
  obtain ⟨text, htext, rfl⟩ := Result.map_eq_ok.1 (heq.symm.trans hcondition)
  obtain ⟨fragments, word, hfragments, hspelled, hatoms, hword⟩ :=
    predicate.exists_word truth 0 htext
  have hrecognizable : ∀ found ∈ Sql.atoms word, Sql.Recognizable found.1 := by
    intro found hfound
    obtain ⟨fragment, hfragment, heq⟩ := List.mem_map.1 (mem_of_mem_valued (hatoms ▸ hfound))
    obtain ⟨comparison, -, hcondition⟩ := Result.exists_of_mem_mapM_ok hfragments hfragment
    exact heq ▸ Comparison.recognizable_condition hcondition
  refine ⟨_, _, fragments, clause?_eq_ok hgiven hpredicate, hcomparisons, hfragments,
    fun value => ?_⟩
  rw [evaluate_eq htree hpredicate]
  refine ⟨⟨fun h => ?_, fun h => h ▸ predicate.means_clause 0⟩, ?_⟩
  · have hrest : ∀ atom ∈ ([] : List (Json × Bool)), Clause.NeedsAtom atom.1 := by simp
    exact (predicate.eq_of_means (isLogical_of_mem_comparisons htree hcomparisons) hrest h rfl).2
  · rw [ConditionMeans, ← hspelled, ← hatoms]
    exact Sql.means_iff (.conjunction (.operand hword)) hrecognizable value

/-- Alternatives beside a leaf whose condition holds an `AND`, one of them a childless group. -/
def describedOutage : Filter :=
  .conj
    [.unary "message" "not_empty",
      .disj [.leaf "status" "out_range" (.array [.int 200, .int 499]), .conj []],
      .disj [.leaf "status" "eq" (.int 404)]]

/-- All leaves but the second hold; so do the filter and both renderings. -/
theorem renderings_agree_describedOutage :
    describedOutage.check logFields 10 = .ok () ∧
      ∃ condition clause comparisons fragments,
        condition? .byName logFields (some describedOutage) = .ok condition ∧
        clause? .byName logFields (some describedOutage) = .ok clause ∧
        describedOutage.leaves.mapM (comparison .byName logFields) = .ok comparisons ∧
        comparisons.mapM Comparison.condition = .ok fragments ∧
        ∀ value,
          (ClauseMeans (valued (fun leaf => leaf ≠ 1) 0 (comparisons.map Clause.ofComparison))
            clause value ↔ value = true) ∧
          (ConditionMeans (valued (fun leaf => leaf ≠ 1) 0 (fragments.map String.toList))
            condition value ↔ value = true) := by
  have hlegal : describedOutage.check logFields 10 = .ok () := rfl
  have hcondition :
      ∃ condition, condition? .byName logFields (some describedOutage) = .ok condition := ⟨_, rfl⟩
  obtain ⟨condition, hcondition⟩ := hcondition
  have hvalue : evaluate (fun leaf => leaf ≠ 1) 0 describedOutage = true := rfl
  obtain ⟨clause, comparisons, fragments, hclause, hcomparisons, hfragments, hagree⟩ :=
    renderings_agree (fun leaf => leaf ≠ 1) hlegal hcondition
  rw [hvalue] at hagree
  exact ⟨hlegal, condition, clause, comparisons, fragments, hcondition, hclause, hcomparisons,
    hfragments, hagree⟩

end Filter

end ViewCompiler
