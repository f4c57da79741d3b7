import ViewCompiler.Proofs.Json.Record
import ViewCompiler.Proofs.Request.Search
import ViewCompiler.Readers.Standard

/-!
# Where full-text clauses stand

A full-text clause contributes to the relevance of a document where it stands in `must` or `should`
lists only; below a `filter` or a `must_not` it decides on matching alone.

* `Clause.Reaches`: a clause stands inside another, behind the lists with these names.
* `Clause.Scored`: every full-text clause inside is reached through `must` and `should`.
* `Predicate.marked_clause`: **the full-text clauses of a predicate score**, at every level of
  `and` and `or`.
* `BoolQuery.scored_push?`: adding a clause with its mark adds no full-text clause to a list that
  filters.
* `View.scored_scopeQuery_iff`: a scope query does so too, unless a single view node has a
  full-text filter.
* `View.searchRequest_scored_iff`: **a search computes scores if it has full text, and its
  full-text clauses score unless they come from the filter of a single view node.**
-/

namespace ViewCompiler

/-! ### Clauses -/

namespace Clause

/-- The second clause stands inside the first, behind the lists with these names, from the outside
to the inside. -/
inductive Reaches : Json → List String → Json → Prop
  | here (clause : Json) : Reaches clause [] clause
  | inside {members : KeyMap Json} {name : String} {inner found : Json} {path : List String}
      (hinner : inner ∈ listed members name) (hfound : Reaches inner path found) :
      Reaches (single "bool" (.object members)) (name :: path) found

/-- Is the clause itself a full-text clause? -/
def IsFullText (clause : Json) : Prop :=
  ∃ name ∈ ["match", "match_phrase", "multi_match"], ∃ value, clause = single name value

/-- Does a full-text clause stand in the clause? -/
def HasFullText (clause : Json) : Prop := ∃ path found, Reaches clause path found ∧ IsFullText found

/-- The list with this name scores. -/
def ScoringList (name : String) : Prop := name = "must" ∨ name = "should"

/-- Every full-text clause in the clause stands behind scoring lists only. -/
def Scored (clause : Json) : Prop :=
  ∀ path found, Reaches clause path found → IsFullText found → ∀ name ∈ path, ScoringList name

/-- A clause with the mark of whether it scores: it is marked if it has a full-text clause, and
inside it every such clause scores. -/
structure Marked (clause : Json × Bool) : Prop where
  scored : Scored clause.1
  hasFullText : HasFullText clause.1 ↔ clause.2 = true

variable {clause : Json} {clauses : List Json} {members : KeyMap Json} {key : String}

theorem single_inj {name : String} {value other : Json} :
    single key value = single name other ↔ key = name ∧ value = other := by
  simp [single]

theorem isFullText_single {value : Json} :
    IsFullText (single key value) ↔ key ∈ ["match", "match_phrase", "multi_match"] := by
  constructor
  · rintro ⟨name, hname, other, hsingle⟩
    obtain ⟨rfl, -⟩ := single_inj.1 hsingle
    exact hname
  · intro hkey
    exact ⟨key, hkey, value, rfl⟩

/-- What stands in a `bool` clause is the clause itself or stands in a clause of one of its
lists. -/
theorem reaches_bool {path : List String} {found : Json} :
    Reaches (single "bool" (.object members)) path found ↔
      (path = [] ∧ found = single "bool" (.object members)) ∨
        ∃ name, ∃ inner ∈ listed members name, ∃ rest,
          path = name :: rest ∧ Reaches inner rest found := by
  constructor
  · intro h
    generalize hwhole : single "bool" (.object members) = whole at h
    cases h with
    | here => exact .inl ⟨rfl, rfl⟩
    | inside hinner hfound =>
      obtain rfl : members = _ := by simpa [single] using hwhole
      exact .inr ⟨_, _, hinner, _, rfl, hfound⟩
  · rintro (⟨rfl, rfl⟩ | ⟨name, inner, hinner, rest, rfl, hfound⟩)
    · exact .here _
    · exact .inside hinner hfound

theorem reaches_single {path : List String} {found value : Json} (hkey : key ≠ "bool") :
    Reaches (single key value) path found ↔ path = [] ∧ found = single key value := by
  constructor
  · intro h
    generalize hwhole : single key value = whole at h
    cases h with
    | here => exact ⟨rfl, rfl⟩
    | inside => exact absurd (single_inj.1 hwhole).1 hkey
  · rintro ⟨rfl, rfl⟩
    exact .here _

theorem hasFullText_single {value : Json} (hkey : key ≠ "bool") :
    HasFullText (single key value) ↔ key ∈ ["match", "match_phrase", "multi_match"] := by
  simp only [HasFullText, reaches_single hkey]
  constructor
  · rintro ⟨_, _, ⟨rfl, rfl⟩, hfull⟩
    exact isFullText_single.1 hfull
  · intro h
    exact ⟨[], _, ⟨rfl, rfl⟩, isFullText_single.2 h⟩

theorem scored_single {value : Json} (hkey : key ≠ "bool") : Scored (single key value) := by
  intro path found hreaches hfull name hname
  obtain ⟨rfl, -⟩ := (reaches_single hkey).1 hreaches
  exact absurd hname List.not_mem_nil

theorem hasFullText_bool :
    HasFullText (single "bool" (.object members)) ↔
      ∃ name, ∃ inner ∈ listed members name, HasFullText inner := by
  constructor
  · rintro ⟨path, found, hreaches, hfull⟩
    rcases reaches_bool.1 hreaches with ⟨-, rfl⟩ | ⟨name, inner, hinner, rest, -, hrest⟩
    · exact absurd (isFullText_single.1 hfull) (by decide)
    · exact ⟨name, inner, hinner, rest, found, hrest, hfull⟩
  · rintro ⟨name, inner, hinner, path, found, hreaches, hfull⟩
    exact ⟨name :: path, found, .inside hinner hreaches, hfull⟩

/-- The full-text clauses of a `bool` clause score if they do inside its clauses and if its other
lists have none. -/
theorem scored_bool :
    Scored (single "bool" (.object members)) ↔
      ∀ name, ∀ inner ∈ listed members name,
        Scored inner ∧ (HasFullText inner → ScoringList name) := by
  constructor
  · intro h name inner hinner
    constructor
    · intro path found hreaches hfull step hstep
      have hwhole := h (name :: path) found (.inside hinner hreaches) hfull
      exact hwhole step (List.mem_cons_of_mem _ hstep)
    · rintro ⟨path, found, hreaches, hfull⟩
      exact h (name :: path) found (.inside hinner hreaches) hfull name List.mem_cons_self
  · intro h path found hreaches hfull
    rcases reaches_bool.1 hreaches with ⟨rfl, -⟩ | ⟨name, inner, hinner, rest, rfl, hrest⟩
    · exact List.forall_mem_nil _
    · obtain ⟨hscored, hlist⟩ := h name inner hinner
      have hname : ScoringList name := hlist ⟨rest, found, hrest, hfull⟩
      exact List.forall_mem_cons.2 ⟨hname, hscored rest found hrest hfull⟩

theorem scored_of_not_hasFullText (h : ¬HasFullText clause) : Scored clause :=
  fun path found hreaches hfull => absurd ⟨path, found, hreaches, hfull⟩ h

/-! #### One list -/

theorem mem_listed {name : String} :
    clause ∈ listed members name ↔
      ∃ clauses, members.get? name = some (.array clauses) ∧ clause ∈ clauses := by
  rw [listed]
  cases hget : members.get? name with
  | none => simp
  | some value => cases value <;> simp [Json.items?]

section OneList

variable (hlist : ∀ name, listed members name = if key = name then clauses else [])
include hlist

theorem hasFullText_of_listed :
    HasFullText (single "bool" (.object members)) ↔ ∃ inner ∈ clauses, HasFullText inner := by
  rw [hasFullText_bool]
  constructor
  · rintro ⟨name, inner, hinner, hfull⟩
    rw [hlist] at hinner
    split at hinner
    · exact ⟨inner, hinner, hfull⟩
    · exact absurd hinner List.not_mem_nil
  · rintro ⟨inner, hinner, hfull⟩
    exact ⟨key, inner, by rwa [hlist, if_pos rfl], hfull⟩

/-- The full text of a `bool` clause with a single list scores if it does so inside the clauses,
unless the list filters. -/
theorem scored_of_listed :
    Scored (single "bool" (.object members)) ↔
      ∀ inner ∈ clauses, Scored inner ∧ (HasFullText inner → ScoringList key) := by
  rw [scored_bool]
  constructor
  · intro h inner hinner
    exact h key inner (by rwa [hlist, if_pos rfl])
  · intro h name inner hinner
    rw [hlist] at hinner
    split at hinner
    · next hname =>
      subst hname
      exact h inner hinner
    · exact absurd hinner List.not_mem_nil

end OneList

theorem listed_single (clauses : List Json) (name : String) :
    listed [(key, Json.array clauses)] name = if key = name then clauses else [] := by
  by_cases hname : key = name <;> simp [listed, KeyMap.get?_cons, hname, Json.items?]

theorem listed_anyOf (clauses : List Json) (name : String) :
    listed (KeyMap.ofList [("should", .array clauses), ("minimum_should_match", .nat 1)]) name =
      if "should" = name then clauses else [] := by
  simp only [listed, KeyMap.ofList, List.foldl_cons, List.foldl_nil, KeyMap.get?_insert,
    KeyMap.empty, KeyMap.get?_nil]
  split_ifs with hminimum hshould
  · subst hminimum
    simp at hshould
  · rfl
  · rfl
  · rfl

theorem hasFullText_list :
    HasFullText (single "bool" (single key (.array clauses))) ↔
      ∃ inner ∈ clauses, HasFullText inner :=
  hasFullText_of_listed (listed_single clauses)

theorem scored_list :
    Scored (single "bool" (single key (.array clauses))) ↔
      ∀ inner ∈ clauses, Scored inner ∧ (HasFullText inner → ScoringList key) :=
  scored_of_listed (listed_single clauses)

theorem hasFullText_mustNot : HasFullText (mustNot clause) ↔ HasFullText clause := by
  rw [mustNot, hasFullText_list]
  simp

theorem hasFullText_anyOf :
    HasFullText (anyOf clauses) ↔ ∃ inner ∈ clauses, HasFullText inner :=
  hasFullText_of_listed (listed_anyOf clauses)

theorem scored_anyOf (h : ∀ inner ∈ clauses, Scored inner) : Scored (anyOf clauses) := by
  refine (scored_of_listed (listed_anyOf clauses)).2 fun inner hinner => ?_
  exact ⟨h inner hinner, fun _ => .inr rfl⟩

/-! #### Comparisons -/

theorem not_hasFullText_single {value : Json}
    (hkey : key ∉ ["bool", "match", "match_phrase", "multi_match"]) :
    ¬HasFullText (single key value) := by
  obtain ⟨hbool, hfull⟩ := not_or.1 (mt List.mem_cons.2 hkey)
  rwa [hasFullText_single hbool]

theorem not_hasFullText_null : ¬HasFullText .null := by
  rintro ⟨path, found, ⟨⟩, name, -, value, hsingle⟩
  cases hsingle

/-- A comparison is a full-text clause if its operator scores; what it compares with is no
clause. -/
theorem hasFullText_ofComparison {comparison : Comparison} :
    HasFullText (ofComparison comparison) ↔ comparison.operator.isScoring = true := by
  rw [ofComparison]
  cases hoperator : comparison.operator with
  | fullText | phrase =>
    simp only [Operator.isScoring, iff_true]
    split
    · exact (hasFullText_single (by decide)).2 (by decide)
    · exact (hasFullText_single (by decide)).2 (by decide)
  | all | any =>
    simp only [Operator.isScoring, Bool.false_eq_true, iff_false]
    exact not_hasFullText_null
  | notEq | notIn | notLike | notStartsWith | notExist | null =>
    simp only [Operator.isScoring, Bool.false_eq_true, iff_false, hasFullText_mustNot]
    exact not_hasFullText_single (by decide)
  | outRange =>
    simp only [Operator.isScoring, Bool.false_eq_true, iff_false, hasFullText_anyOf,
      List.exists_mem_cons_iff, List.not_mem_nil, false_and, exists_false, or_false, not_or]
    exact ⟨not_hasFullText_single (by decide), not_hasFullText_single (by decide)⟩
  | notEmpty =>
    simp only [Operator.isScoring, Bool.false_eq_true, iff_false, Json.ofMembers, hasFullText_bool,
      listed, KeyMap.ofList, List.foldl_cons, List.foldl_nil, KeyMap.get?_insert, KeyMap.empty,
      KeyMap.get?_nil]
    rintro ⟨name, inner, hinner, hfull⟩
    split_ifs at hinner
    · obtain rfl := List.mem_singleton.1 hinner
      exact not_hasFullText_single (by decide) hfull
    · obtain rfl := List.mem_singleton.1 hinner
      exact not_hasFullText_single (by decide) hfull
    · exact absurd hinner List.not_mem_nil
  | _ =>
    simp only [Operator.isScoring, Bool.false_eq_true, iff_false]
    exact not_hasFullText_single (by decide)

theorem scored_ofComparison {comparison : Comparison} : Scored (ofComparison comparison) := by
  by_cases hfull : HasFullText (ofComparison comparison)
  · rw [hasFullText_ofComparison, Filter.isScoring_iff] at hfull
    rw [ofComparison]
    rcases hfull with hoperator | hoperator <;> rw [hoperator]
    · dsimp only
      split
      · exact scored_single (by decide)
      · exact scored_single (by decide)
    · dsimp only
      split
      · exact scored_single (by decide)
      · exact scored_single (by decide)
  · exact scored_of_not_hasFullText hfull

end Clause

/-! ### Filters -/

namespace Predicate

mutual

/-- **The full-text clauses of a predicate score**: an `and` that has any puts its clauses into
`must`, and an `or` into `should`. -/
theorem marked_clause (predicate : Predicate) :
    Clause.Marked (predicate.clause, predicate.needsScoring) := by
  match predicate with
  | .leaf comparison =>
    exact ⟨Clause.scored_ofComparison, Clause.hasFullText_ofComparison⟩
  | .all parts =>
    obtain ⟨hscored, hfull⟩ := marked_clauses parts
    constructor
    · refine Clause.scored_list.2 fun inner hinner => ⟨hscored inner hinner, fun hinside => ?_⟩
      rw [if_pos (hfull.1 ⟨inner, hinner, hinside⟩)]
      exact .inl rfl
    · exact Clause.hasFullText_list.trans hfull
  | .any parts =>
    obtain ⟨hscored, hfull⟩ := marked_clauses parts
    exact ⟨Clause.scored_anyOf hscored, Clause.hasFullText_anyOf.trans hfull⟩

theorem marked_clauses (predicates : List Predicate) :
    (∀ clause ∈ clauses predicates, Clause.Scored clause) ∧
      ((∃ clause ∈ clauses predicates, Clause.HasFullText clause) ↔
        anyNeedsScoring predicates = true) := by
  match predicates with
  | [] => simp [clauses, anyNeedsScoring]
  | part :: rest =>
    obtain ⟨hpart, hfull⟩ := marked_clause part
    obtain ⟨hrest, hothers⟩ := marked_clauses rest
    constructor
    · exact List.forall_mem_cons.2 ⟨hpart, hrest⟩
    · rw [clauses, anyNeedsScoring, List.exists_mem_cons_iff, Bool.or_eq_true, hfull, hothers]

end

end Predicate

namespace Filter

variable {addressing : Addressing} {fields : FieldSet}

theorem marked_clause? {filter : Option Filter} {clause : Option (Json × Bool)}
    (h : clause? addressing fields filter = .ok clause) :
    ∀ found ∈ clause, Clause.Marked found := by
  rw [clause?] at h
  split at h
  · obtain rfl := Except.ok.inj h
    intro found hfound
    cases hfound
  · obtain ⟨predicate, -, rfl⟩ := Result.map_eq_ok.1 h
    intro found hfound
    obtain rfl := Option.some.inj hfound
    exact Predicate.marked_clause predicate

end Filter

/-! ### Lists of clauses -/

namespace BoolQuery

variable {query : BoolQuery} {clause : Option (Json × Bool)}

/-- A full-text clause stands in a list of the query. -/
def HasFullText (query : BoolQuery) : Prop :=
  ∃ clause ∈ query.filter ++ query.must ++ query.should, Clause.HasFullText clause

/-- Every full-text clause of the query scores. -/
structure Scored (query : BoolQuery) : Prop where
  filter : ∀ clause ∈ query.filter, ¬Clause.HasFullText clause
  must : ∀ clause ∈ query.must, Clause.Scored clause
  should : ∀ clause ∈ query.should, Clause.Scored clause

theorem mem_members {entry : String × Json} (h : entry ∈ query.members) :
    entry = ("filter", .array query.filter) ∨ entry = ("must", .array query.must) ∨
      entry = ("should", .array query.should) ∨
      ∃ minimum, entry = ("minimum_should_match", Json.nat minimum) := by
  have hlist : ∀ {name : String} {clauses : List Json},
      entry ∈ (if clauses.isEmpty then [] else [(name, Json.array clauses)]) →
        entry = (name, .array clauses) := by
    intro name clauses hentry
    split at hentry
    · exact absurd hentry List.not_mem_nil
    · exact List.mem_singleton.1 hentry
  simp only [BoolQuery.members, List.mem_append] at h
  rcases h with ((h | h) | h) | h
  · exact .inl (hlist h)
  · exact .inr (.inl (hlist h))
  · exact .inr (.inr (.inl (hlist h)))
  · obtain ⟨minimum, -, rfl⟩ := Option.map_eq_some_iff.1 (Option.mem_toList.1 h)
    exact .inr (.inr (.inr ⟨minimum, rfl⟩))

section Written

variable {members : KeyMap Json}
  (h : members = query.members ∨ members = KeyMap.ofList query.members)
include h

theorem mem_listed {name : String} {inner : Json} :
    inner ∈ Clause.listed members name ↔
      name = "filter" ∧ inner ∈ query.filter ∨ name = "must" ∧ inner ∈ query.must ∨
        name = "should" ∧ inner ∈ query.should := by
  obtain ⟨-, hfilter, hmust, -, hshould⟩ := listed_members h
  constructor
  · intro hinner
    obtain ⟨clauses, hget, hclauses⟩ := Clause.mem_listed.1 hinner
    have hentry : (name, Json.array clauses) ∈ query.members := by
      rcases h with rfl | rfl
      · exact KeyMap.mem_of_get? hget
      · rw [KeyMap.get?_ofList] at hget
        exact List.mem_reverse.1 (KeyMap.mem_of_get? hget)
    rcases mem_members hentry with heq | heq | heq | ⟨minimum, heq⟩
    · cases heq
      exact .inl ⟨rfl, hclauses⟩
    · cases heq
      exact .inr (.inl ⟨rfl, hclauses⟩)
    · cases heq
      exact .inr (.inr ⟨rfl, hclauses⟩)
    · cases heq
  · rintro (⟨rfl, hinner⟩ | ⟨rfl, hinner⟩ | ⟨rfl, hinner⟩)
    · rwa [hfilter]
    · rwa [hmust]
    · rwa [hshould]

theorem hasFullText_single :
    Clause.HasFullText (Clause.single "bool" (.object members)) ↔ query.HasFullText := by
  rw [Clause.hasFullText_bool]
  simp only [mem_listed h, HasFullText, List.mem_append]
  grind

theorem scored_single :
    Clause.Scored (Clause.single "bool" (.object members)) ↔ query.Scored := by
  rw [Clause.scored_bool]
  simp only [mem_listed h]
  constructor
  · intro hscored
    constructor
    · intro clause hclause hfull
      obtain ⟨-, hname⟩ := hscored "filter" clause (.inl ⟨rfl, hclause⟩)
      exact absurd (hname hfull) (by simp [Clause.ScoringList])
    · intro clause hclause
      exact (hscored "must" clause (.inr (.inl ⟨rfl, hclause⟩))).1
    · intro clause hclause
      exact (hscored "should" clause (.inr (.inr ⟨rfl, hclause⟩))).1
  · rintro ⟨hfilter, hmust, hshould⟩ name inner (⟨rfl, hinner⟩ | ⟨rfl, hinner⟩ | ⟨rfl, hinner⟩)
    · have hnone := hfilter inner hinner
      exact ⟨Clause.scored_of_not_hasFullText hnone, fun hfull => absurd hfull hnone⟩
    · exact ⟨hmust inner hinner, fun _ => .inl rfl⟩
    · exact ⟨hshould inner hinner, fun _ => .inr rfl⟩

end Written

theorem scored_filter {clauses : List Json} :
    ({ filter := clauses } : BoolQuery).Scored ↔
      ∀ clause ∈ clauses, ¬Clause.HasFullText clause := by
  constructor
  · intro h
    exact h.filter
  · intro h
    exact ⟨h, List.forall_mem_nil _, List.forall_mem_nil _⟩

theorem hasFullText_filter {clauses : List Json} :
    ({ filter := clauses } : BoolQuery).HasFullText ↔
      ∃ clause ∈ clauses, Clause.HasFullText clause := by
  simp only [HasFullText, List.append_nil]

theorem scored_push? (hclause : ∀ found ∈ clause, Clause.Marked found) :
    (query.push? clause).Scored ↔ query.Scored := by
  cases clause with
  | none => exact Iff.rfl
  | some found =>
    obtain ⟨clause, scoring⟩ := found
    obtain ⟨hscored, hfull⟩ := hclause _ rfl
    cases scoring with
    | true =>
      constructor
      · rintro ⟨hfilter, hmust, hshould⟩
        exact ⟨hfilter, fun inner hinner => hmust inner (List.mem_append_left _ hinner), hshould⟩
      · rintro ⟨hfilter, hmust, hshould⟩
        refine ⟨hfilter, ?_, hshould⟩
        exact List.forall_mem_append.2 ⟨hmust, List.forall_mem_singleton.2 hscored⟩
    | false =>
      have hnone : ¬Clause.HasFullText clause := by
        simpa using hfull
      constructor
      · rintro ⟨hfilter, hmust, hshould⟩
        exact ⟨fun inner hinner => hfilter inner (List.mem_append_left _ hinner), hmust, hshould⟩
      · rintro ⟨hfilter, hmust, hshould⟩
        refine ⟨?_, hmust, hshould⟩
        exact List.forall_mem_append.2 ⟨hfilter, List.forall_mem_singleton.2 hnone⟩

theorem hasFullText_push? (hclause : ∀ found ∈ clause, Clause.Marked found) :
    (query.push? clause).HasFullText ↔ query.HasFullText ∨ scores clause = true := by
  cases clause with
  | none => simp [BoolQuery.push?, scores]
  | some found =>
    obtain ⟨clause, scoring⟩ := found
    obtain ⟨-, hfull⟩ := hclause _ rfl
    simp only [scores, Option.any_some, ← hfull]
    cases scoring with
    | true =>
      simp only [BoolQuery.push?, push, ↓reduceIte, HasFullText, List.mem_append,
        List.mem_singleton]
      grind
    | false =>
      simp only [BoolQuery.push?, push, Bool.false_eq_true, ↓reduceIte, HasFullText,
        List.mem_append, List.mem_singleton]
      grind

end BoolQuery

/-! ### The scope -/

namespace Node

variable {routes : NodeRoutes} {node : Node}

theorem marked_branch {id : String} {filter : Option Filter} {source : View}
    {branch : Json × Bool} (h : Node.branch routes id filter source = .ok branch) :
    Clause.Marked branch := by
  obtain ⟨clause, hclause, h⟩ := Result.bind_eq_ok.1 h
  obtain rfl := Except.ok.inj h
  have hmarked := Filter.marked_clause? (Result.mapError_eq_ok.1 hclause)
  have hindices : ¬Clause.HasFullText (inIndices ((routes.get? id).getD [])) :=
    Clause.not_hasFullText_single (by decide)
  have hscored : ({ filter := [inIndices ((routes.get? id).getD [])] } : BoolQuery).Scored :=
    BoolQuery.scored_filter.2 (List.forall_mem_singleton.2 hindices)
  have hnone : ¬({ filter := [inIndices ((routes.get? id).getD [])] } : BoolQuery).HasFullText := by
    rw [BoolQuery.hasFullText_filter]
    rintro ⟨clause, hclause, hfull⟩
    obtain rfl := List.mem_singleton.1 hclause
    exact hindices hfull
  constructor
  · exact (BoolQuery.scored_single (.inr rfl)).2 ((BoolQuery.scored_push? hmarked).2 hscored)
  · refine (BoolQuery.hasFullText_single (.inr rfl)).trans ?_
    exact (BoolQuery.hasFullText_push? hmarked).trans (or_iff_right hnone)

theorem marked_branch? {branch : Option (Json × Bool)} (h : node.branch? routes = .ok branch) :
    (∀ found ∈ branch, Clause.Marked found) ∧ (branch.isSome = true ↔ node.kind = .view) := by
  rw [branch?] at h
  rw [kind]
  split at h
  · cases h
  · next viewId filter distinct source hconfig =>
    obtain ⟨found, hfound, rfl⟩ := Result.map_eq_ok.1 h
    simpa [hconfig, NodeConfig.kind] using marked_branch hfound
  · next columns filter hconfig =>
    obtain rfl := Except.ok.inj h
    simp [hconfig, NodeConfig.kind]
  · cases h
  · next hconfig =>
    obtain rfl := Except.ok.inj h
    simp [hconfig, NodeConfig.kind]
  · cases h

/-- There is one clause for each view node, and all are marked. -/
theorem marked_allBranches {nodes : List Node} {branches : List (Json × Bool)}
    (h : allBranches routes nodes = .ok branches) :
    (∀ found ∈ branches, Clause.Marked found) ∧
      branches.length = (nodes.filter fun node => node.kind = .view).length := by
  induction nodes generalizing branches with
  | nil =>
    obtain rfl := Except.ok.inj h
    simp
  | cons node rest ih =>
    obtain ⟨first, hfirst, h⟩ := Result.bind_eq_ok.1 h
    obtain ⟨others, hothers, h⟩ := Result.bind_eq_ok.1 h
    obtain rfl := Except.ok.inj h
    obtain ⟨hmarked, hkind⟩ := marked_branch? (Result.mapError_eq_ok.1 hfirst)
    obtain ⟨hrest, hlength⟩ := ih hothers
    constructor
    · intro found hfound
      rcases List.mem_append.1 hfound with hfound | hfound
      · exact hmarked found (Option.mem_toList.1 hfound)
      · exact hrest found hfound
    · cases first with
      | none =>
        have hnot : ¬node.kind = .view := by simpa using hkind
        simp [hnot, hlength]
      | some found =>
        have hview : node.kind = .view := hkind.1 rfl
        simp [hview, hlength]

theorem IsFullText.kind_eq (h : node.IsFullText) : node.kind = .view := by
  obtain ⟨viewId, filter, distinct, source, hconfig, -⟩ := h
  rw [kind, hconfig]
  rfl

end Node

namespace View

variable {view : View} {settings : QuerySettings} {query : Query} {pagination : Pagination}
  {routes : NodeRoutes}

/-- The view is custom and its only view node has a full-text filter. -/
def HasLoneFullText (view : View) : Prop :=
  view.isAtomic = false ∧ ∃ node, view.viewNodes = [node] ∧ node.IsFullText

theorem exists_isFullText_iff :
    (∃ node ∈ view.scope, node.IsFullText) ↔ ∃ node ∈ view.viewNodes, node.IsFullText := by
  simp only [viewNodes, List.mem_filter, decide_eq_true_eq]
  constructor
  · rintro ⟨node, hnode, hfull⟩
    exact ⟨node, ⟨hnode, hfull.kind_eq⟩, hfull⟩
  · rintro ⟨node, ⟨hnode, -⟩, hfull⟩
    exact ⟨node, hnode, hfull⟩

/-- **The full-text clauses of a scope query score, unless they are those of a single view node**,
whose clause filters. -/
theorem scored_scopeQuery_iff {scope : BoolQuery} {scoring : Bool}
    (h : view.scopeQuery routes = .ok (scope, scoring)) :
    (scope.HasFullText ↔ scoring = true) ∧ (scope.Scored ↔ ¬view.HasLoneFullText) := by
  rw [scopeQuery] at h
  split at h
  · next hatomic =>
    cases h
    have hscored : ({} : BoolQuery).Scored := BoolQuery.scored_filter.2 (List.forall_mem_nil _)
    simp [BoolQuery.HasFullText, HasLoneFullText, hatomic, hscored]
  · next hatomic =>
    rw [Bool.not_eq_true] at hatomic
    obtain ⟨branches, hbranches, h⟩ := Result.bind_eq_ok.1 h
    obtain ⟨hmarked, hlength⟩ := Node.marked_allBranches hbranches
    obtain ⟨-, hfull⟩ := Node.allBranches_spec (fun _ => true) hbranches
    rw [← viewNodes] at hlength
    rw [exists_isFullText_iff] at hfull
    rcases branches with - | ⟨first, - | ⟨second, rest⟩⟩
    · cases h
    · -- the clause of a single view node filters
      cases h
      obtain ⟨node, hnode⟩ := List.length_eq_one_iff.1 hlength.symm
      have hmark : first.2 = true ↔ node.IsFullText := by simpa [hnode] using hfull
      have hinside := (hmarked first List.mem_cons_self).hasFullText
      constructor
      · refine BoolQuery.hasFullText_filter.trans ?_
        simp [hinside]
      · refine BoolQuery.scored_filter.trans ?_
        simp [hinside, hmark, HasLoneFullText, hatomic, hnode]
    · -- several clauses are alternatives, which score
      cases h
      have hseveral : ¬view.HasLoneFullText := by
        rintro ⟨-, node, hnode, -⟩
        simp [hnode] at hlength
      constructor
      · have hmarks : (∃ clause ∈ (first :: second :: rest).map Prod.fst,
            Clause.HasFullText clause) ↔
            ∃ found ∈ first :: second :: rest, found.2 = true := by
          simp only [List.mem_map, exists_exists_and_eq_and]
          refine exists_congr fun found => and_congr_right fun hfound => ?_
          exact (hmarked found hfound).hasFullText
        simpa [BoolQuery.HasFullText] using hmarks
      · refine iff_of_true ⟨?_, ?_, ?_⟩ hseveral
        · exact List.forall_mem_nil _
        · exact List.forall_mem_nil _
        · intro clause (hclause : clause ∈ (first :: second :: rest).map Prod.fst)
          obtain ⟨found, hfound, rfl⟩ := List.mem_map.1 hclause
          exact (hmarked found hfound).scored

/-! ### The request -/

theorem marked_timeRange {start stop : Int} :
    ∀ found ∈ (timeRange start stop).map fun range => (range, false), Clause.Marked found := by
  intro found hfound
  obtain ⟨range, hrange, rfl⟩ := Option.map_eq_some_iff.1 hfound
  have hnone : ¬Clause.HasFullText range := by
    rw [timeRange] at hrange
    split at hrange
    · cases hrange
    · obtain rfl := Option.some.inj hrange
      exact Clause.not_hasFullText_single (by decide)
  exact ⟨Clause.scored_of_not_hasFullText hnone, by simp [hnone]⟩

/-- The clauses that a query adds to its scope score if they have full text, so all of a search do
if those of the scope do. -/
theorem scored_documents_iff [Readers] {all : BoolQuery} {scoring : Bool} {grant : Grant}
    (h : view.documents settings query routes = .ok (all, scoring, grant)) :
    (all.HasFullText ↔ scoring = true) ∧ (all.Scored ↔ ¬view.HasLoneFullText) := by
  obtain ⟨⟨scope, scopeScores⟩, hscope, h⟩ := Result.bind_eq_ok.1 h
  obtain ⟨filter, hfilter, h⟩ := Result.bind_eq_ok.1 h
  obtain ⟨granted, -, h⟩ := Result.bind_eq_ok.1 h
  obtain ⟨rows, hrows, h⟩ := Result.bind_eq_ok.1 h
  cases h
  obtain ⟨hfull, hscored⟩ := scored_scopeQuery_iff (Result.mapError_eq_ok.1 hscope)
  have hfilter := Filter.marked_clause? (Result.mapError_eq_ok.1 hfilter)
  have hrows := Filter.marked_clause? (Result.mapError_eq_ok.1 hrows)
  -- the time window is one more clause that filters
  have hwindow : ({ scope with
      filter := scope.filter ++ (timeRange query.start query.stop).toList } : BoolQuery) =
      scope.push? ((timeRange query.start query.stop).map fun range => (range, false)) := by
    cases timeRange query.start query.stop <;> simp [BoolQuery.push?, BoolQuery.push]
  have hunscored : scores ((timeRange query.start query.stop).map fun range => (range, false)) =
      false := by
    cases timeRange query.start query.stop <;> rfl
  rw [hwindow, BoolQuery.scored_push? hrows, BoolQuery.scored_push? hfilter,
    BoolQuery.scored_push? marked_timeRange, BoolQuery.hasFullText_push? hrows,
    BoolQuery.hasFullText_push? hfilter, BoolQuery.hasFullText_push? marked_timeRange, hfull,
    hunscored]
  exact ⟨by simp [or_assoc], hscored⟩

/-- **A search computes scores if a full-text clause stands in its query, and all of them are
reached through `must` and `should`, unless they come from the filter of a single view node.** -/
theorem searchRequest_scored_iff [Readers] {request : SearchRequest} {visible : FieldSet}
    (h : view.searchRequest settings query pagination routes = .ok (request, visible)) :
    ∃ root, request.encode.member? "query" = some root ∧
      (Clause.HasFullText root ↔ request.encode.member? "track_scores" = some (.bool true)) ∧
      (Clause.Scored root ↔ ¬view.HasLoneFullText) := by
  obtain ⟨scoring, grant, sort, hdocuments, -, -, hscores⟩ := searchRequest_parts h
  obtain ⟨hfull, hscored⟩ := scored_documents_iff hdocuments
  refine ⟨Clause.single "bool" (.object request.query.members), request.encode_query, ?_, ?_⟩
  · rw [BoolQuery.hasFullText_single (.inl rfl), SearchRequest.encode_trackScores, hscores]
    exact hfull
  · rw [BoolQuery.scored_single (.inl rfl)]
    exact hscored

/-- A view of the documents of one base type that hold a text. -/
def mentioning (text : String) : View where
  id := "mentions"
  kind := .custom
  scope :=
    [{ id := "notes", config := .view "n" (some (.leaf "note" "match" (.string text))) {}
        (some { View.atomic "n" "notes" .indexBase with
          fields := .ofList [.ofName "note" .text] }) },
      { id := "out", inputs := ["notes"], config := .output }]

/-- The search computes scores, but its full-text clause filters. -/
theorem searchRequest_scored_iff_mentioning :
    ∃ request visible root,
      (mentioning "late").searchRequest {} {} (.offset 0) [("notes", ["x-notes-1"])] =
          .ok (request, visible) ∧
        request.encode.member? "query" = some root ∧ Clause.HasFullText root ∧
        request.encode.member? "track_scores" = some (.bool true) ∧ ¬Clause.Scored root := by
  have hrequest :
      (mentioning "late").searchRequest {} {} (.offset 0) [("notes", ["x-notes-1"])] =
        .ok (_, _) := rfl
  obtain ⟨root, hroot, hfull, hscored⟩ := searchRequest_scored_iff hrequest
  have hlone : (mentioning "late").HasLoneFullText :=
    ⟨rfl, _, rfl, "n", _, {}, _, rfl, _, List.mem_cons_self, .inl rfl⟩
  refine ⟨_, _, root, hrequest, hroot, hfull.2 ?_, ?_, fun h => hscored.1 h hlone⟩
  · exact (SearchRequest.encode_trackScores _).2 rfl
  · exact (SearchRequest.encode_trackScores _).2 rfl

end View

end ViewCompiler
