import ViewCompiler.Proofs.Filter.Condition
import ViewCompiler.Sql.Token

/-!
# What a comparison is addressed to

Both renderings of a comparison can be asked for the column that they test.

* `Sql.Token.readQuoted_doubled`: a quoted text is read back.
* `Sql.firstName?`: the first name between double quotes in a text.
* `Comparison.firstName?_condition`: **the condition of a comparison names its column.**
* `Clause.LooksAt`: the clause, or one of those that it joins, looks at a path.
* `Clause.path_of_looksAt`: **the clause of a comparison looks at no path but its own**, unless its
  field is analysed text.
* `Filter.Tests`, `Filter.Searches`: how the conditions and the clauses of a filter name a field;
  `Filter.Tests.eq_sourceName` and `Filter.Searches.eq_path` say what these names are.
-/

namespace ViewCompiler

namespace Sql

/-! ### Quoted names -/

theorem Token.readQuoted_doubled {quote : Char} (cs : List Char) {rest : List Char}
    (hrest : rest.head? ≠ some quote) :
    readQuoted quote (doubled quote cs ++ quote :: rest) = some (cs, rest) := by
  induction cs with
  | nil =>
    cases rest with
    | nil => simp [doubled, readQuoted]
    | cons d rest =>
      have hne : d ≠ quote := by simpa using hrest
      simp [doubled, readQuoted, hne]
  | cons c cs ih =>
    rw [doubled]
    split
    · next hc =>
      -- a quote that is doubled stands for itself
      subst hc
      simp [readQuoted, ih]
    · next hc =>
      obtain ⟨d, others, heq⟩ : ∃ d others, doubled quote cs ++ quote :: rest = d :: others :=
        List.exists_cons_of_ne_nil (by simp)
      rw [List.cons_append, heq, readQuoted, if_neg hc, ← heq, ih]
      rfl

/-- The first name between double quotes in a text. -/
def firstName? (text : String) : Option String :=
  match text.toList.dropWhile (· ≠ '"') with
  | [] => none
  | _ :: rest => (Token.readQuoted '"' rest).map fun read => String.ofList read.1

theorem firstName?_append {opening : String} (hopening : opening.toList.all (· ≠ '"') = true)
    (text : String) : firstName? (opening ++ text) = firstName? text := by
  rw [firstName?, firstName?, String.toList_append,
    List.dropWhile_append_of_pos (List.all_eq_true.1 hopening)]

/-- A quoted name at the start of a text is its first one, unless a quote comes right behind it. -/
theorem firstName?_quoteIdent (name : String) {rest : String}
    (hrest : rest.toList.head? ≠ some '"') : firstName? (quoteIdent name ++ rest) = some name := by
  have hlist : (quoteIdent name ++ rest).toList =
      '"' :: (doubled '"' name.toList ++ '"' :: rest.toList) := by
    rw [String.toList_append, quoteIdent, String.toList_ofList, enclosed]
    simp only [List.append_assoc, List.cons_append, List.nil_append]
  rw [firstName?, hlist, List.dropWhile_cons_of_neg (by decide)]
  simp only [Token.readQuoted_doubled name.toList hrest, Option.map_some, String.ofList_toList]

theorem firstName?_quoteIdent_self (name : String) : firstName? (quoteIdent name) = some name := by
  have hname : firstName? (quoteIdent name ++ "") = some name :=
    firstName?_quoteIdent name (by simp)
  rwa [String.append_empty] at hname

end Sql

/-! ### Conditions -/

namespace Comparison

variable {comparison : Comparison} {text : String}

/-- **The condition of a comparison names its column.** -/
theorem firstName?_condition (h : comparison.condition = .ok text) :
    Sql.firstName? text = some comparison.column.column := by
  rw [condition] at h
  split at h
  · cases h
  cases hoperator : comparison.operator <;> simp only [hoperator] at h
  case fullText | phrase | all | any => cases h
  case eq | notEq | gt | gte | lt | lte | isIn | notIn =>
    obtain ⟨value, -, rfl⟩ := Result.map_eq_ok.1 h
    simp only [String.append_assoc]
    exact Sql.firstName?_quoteIdent _ (by simp)
  case range | between =>
    obtain ⟨lower, -, h⟩ := Result.bind_eq_ok.1 h
    obtain ⟨upper, -, h⟩ := Result.bind_eq_ok.1 h
    obtain rfl := Except.ok.inj h
    simp only [String.append_assoc]
    exact Sql.firstName?_quoteIdent _ (by simp)
  case outRange =>
    obtain ⟨lower, -, h⟩ := Result.bind_eq_ok.1 h
    obtain ⟨upper, -, h⟩ := Result.bind_eq_ok.1 h
    obtain rfl := Except.ok.inj h
    simp only [String.append_assoc]
    rw [Sql.firstName?_append (by decide)]
    exact Sql.firstName?_quoteIdent _ (by simp)
  case regex | notEmpty =>
    obtain rfl := Except.ok.inj h
    simp only [String.append_assoc]
    rw [Sql.firstName?_append (by decide)]
    exact Sql.firstName?_quoteIdent _ (by simp)
  case like | notLike | startsWith | notStartsWith | before =>
    obtain rfl := Except.ok.inj h
    simp only [String.append_assoc]
    exact Sql.firstName?_quoteIdent _ (by simp)
  case exist | notNull | notExist | null | empty =>
    obtain rfl := Except.ok.inj h
    exact Sql.firstName?_quoteIdent _ (by simp)

end Comparison

/-! ### Clauses -/

namespace Clause

/-- The clauses that a `bool` clause joins; another clause stands for itself. -/
def parts : Json → List Json
  | .object [("bool", .object members)] =>
    listed members "filter" ++ listed members "must" ++ listed members "must_not" ++
      listed members "should"
  | clause => [clause]

/-- The path that a clause names. -/
def path? : Json → Option String
  | .object [("exists", .object [("field", .string path)])] => some path
  | .object [(_, .object [(path, _)])] => some path
  | _ => none

/-- The clause, or one that it joins, looks at a path. -/
def LooksAt (clause : Json) (path : String) : Prop :=
  ∃ part ∈ parts clause, path? part = some path

variable {comparison : Comparison} {path : String} {clauses : List Json} {clause : Json}

theorem path?_single {kind : String} (hexists : kind ≠ "exists") (value : Json) :
    path? (single kind (single path value)) = some path := by
  simp [single, path?, hexists]

theorem path?_range (bounds : List (String × Json)) : path? (range path bounds) = some path :=
  path?_single (by decide) _

theorem path?_has : path? (has path) = some path := by
  simp [has, single, path?]

theorem looksAt_single {kind : String} (hbool : kind ≠ "bool") {value : Json} :
    LooksAt (single kind value) path ↔ path? (single kind value) = some path := by
  simp [LooksAt, parts, single, hbool]

theorem looksAt_mustNot : LooksAt (mustNot clause) path ↔ path? clause = some path := by
  simp [LooksAt, parts, mustNot, single, listed, KeyMap.get?_cons, Json.items?]

theorem looksAt_anyOf :
    LooksAt (anyOf clauses) path ↔ ∃ clause ∈ clauses, path? clause = some path := by
  simp [LooksAt, parts, anyOf, single, listed, Json.ofMembers, Json.items?, KeyMap.ofList,
    KeyMap.empty, KeyMap.get?_insert]

/-- What matches one clause and not another looks at the paths of both. -/
theorem looksAt_without {first second : Json} :
    LooksAt (single "bool" (.ofMembers
        [("filter", .array [first]), ("must_not", .array [second])])) path ↔
      path? first = some path ∨ path? second = some path := by
  simp [LooksAt, parts, single, listed, Json.ofMembers, Json.items?, KeyMap.ofList, KeyMap.empty,
    KeyMap.get?_insert]

/-- The clause over every field looks at none of them. -/
theorem looksAt_everywhere {type : String} {value : Json} :
    ¬LooksAt (everywhere type value) path := by
  -- an object of three members names no path
  have hfields : "fields" < "query" := by decide
  have htype : ¬"type" < "fields" ∧ ¬"type" < "query" := by decide
  rw [everywhere, looksAt_single (by decide)]
  simp [single, path?, Json.ofMembers, KeyMap.ofList, KeyMap.empty, KeyMap.insert, hfields, htype]

theorem exactPath_eq_path {column : Column} (h : column.type.isText = false) :
    column.exactPath = column.path := by
  rw [Column.exactPath, h, Bool.false_and, if_neg Bool.false_ne_true]

/-- **The clause of a comparison looks at no path but that of its column**, unless the field is
analysed text. -/
theorem path_of_looksAt (htext : comparison.column.type.isText = false)
    (h : LooksAt (ofComparison comparison) path) : path = comparison.column.path := by
  unfold ofComparison at h
  simp only [exactPath_eq_path htext] at h
  cases hoperator : comparison.operator <;> simp only [hoperator] at h
  case eq | isIn | like | startsWith | regex | empty =>
    rw [looksAt_single (by decide), path?_single (by decide)] at h
    exact (Option.some.inj h).symm
  case gt | gte | lt | lte | range | between | before =>
    rw [Clause.range, looksAt_single (by decide), path?_single (by decide)] at h
    exact (Option.some.inj h).symm
  case notEq | notIn | notLike | notStartsWith =>
    rw [looksAt_mustNot, path?_single (by decide)] at h
    exact (Option.some.inj h).symm
  case exist | notNull =>
    rw [has, looksAt_single (by decide), ← has, path?_has] at h
    exact (Option.some.inj h).symm
  case notExist | null =>
    rw [looksAt_mustNot, path?_has] at h
    exact (Option.some.inj h).symm
  case outRange =>
    obtain ⟨clause, hclause, hpath⟩ := looksAt_anyOf.1 h
    rcases List.mem_pair.1 hclause with rfl | rfl
    · exact (Option.some.inj ((path?_range _).symm.trans hpath)).symm
    · exact (Option.some.inj ((path?_range _).symm.trans hpath)).symm
  case notEmpty =>
    rcases looksAt_without.1 h with hpath | hpath
    · exact (Option.some.inj (path?_has.symm.trans hpath)).symm
    · exact (Option.some.inj ((path?_single (by decide) _).symm.trans hpath)).symm
  case fullText | phrase =>
    split at h
    · exact absurd h looksAt_everywhere
    · rw [looksAt_single (by decide), path?_single (by decide)] at h
      exact (Option.some.inj h).symm
  case all | any =>
    obtain ⟨part, hpart, hpath⟩ := h
    obtain rfl := List.mem_singleton.1 hpart
    cases hpath

end Clause

/-! ### Fields -/

namespace Filter

variable {addressing : Addressing} {fields : FieldSet} {filter : Option Filter} {field : Field}
  {comparison : Comparison}

/-- A comparison that a filter makes of a field. -/
def Compares (addressing : Addressing) (fields : FieldSet) (filter : Option Filter) (field : Field)
    (comparison : Comparison) : Prop :=
  ∃ given, nonEmpty? filter = some given ∧
    ∃ leaf ∈ given.leaves, leaf.1.field ≠ allFields ∧ fields.get? leaf.1.field = some field ∧
      Filter.comparison addressing fields leaf = .ok comparison

theorem Compares.column_eq (h : Compares addressing fields filter field comparison) :
    comparison.column = .ofField addressing field := by
  obtain ⟨-, -, leaf, -, hfield, hget, hcomparison⟩ := h
  obtain ⟨column, hcolumn, rfl⟩ := Result.map_eq_ok.1 hcomparison
  rw [Column.resolve, if_neg hfield, hget] at hcolumn
  exact (Except.ok.inj hcolumn).symm

/-- The field by its column in a table, as the conditions of a filter name it. -/
def Tests (addressing : Addressing) (fields : FieldSet) (filter : Option Filter) (field : Field)
    (column : String) : Prop :=
  ∃ comparison part, Compares addressing fields filter field comparison ∧
    comparison.condition = .ok part ∧ Sql.firstName? part = some column

/-- The field by its path in a document, as the clauses of a filter name it. -/
def Searches (addressing : Addressing) (fields : FieldSet) (filter : Option Filter) (field : Field)
    (path : String) : Prop :=
  ∃ comparison, Compares addressing fields filter field comparison ∧
    Clause.LooksAt (Clause.ofComparison comparison) path

/-- The conditions of a filter name the column that a field reads. -/
theorem Tests.eq_sourceName {column : String} (h : Tests addressing fields filter field column) :
    column = field.sourceName := by
  obtain ⟨comparison, part, hcompares, hpart, hcolumn⟩ := h
  rw [Comparison.firstName?_condition hpart, hcompares.column_eq] at hcolumn
  exact (Option.some.inj hcolumn).symm

/-- The clauses of a filter look where the addressing says. -/
theorem Searches.eq_path {path : String} (htext : field.type.isText = false)
    (h : Searches addressing fields filter field path) :
    path = (Column.ofField addressing field).path := by
  obtain ⟨comparison, hcompares, hlooks⟩ := h
  have hcolumn := hcompares.column_eq
  rw [← hcolumn]
  refine Clause.path_of_looksAt ?_ hlooks
  rw [hcolumn]
  exact htext

end Filter

end ViewCompiler
