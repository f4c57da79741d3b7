import ViewCompiler.Filter.Predicate

/-!
# Search clauses

`Predicate.clause` writes a predicate as a clause of the search language: `and` as a list that
filters, or that scores if it holds full text, `or` as a list of which one must match. Patterns
match their text literally.
-/

namespace ViewCompiler

namespace Clause

/-- The object with one member. -/
def single (key : String) (value : Json) : Json := .object [(key, value)]

/-- The documents that do not match a clause. -/
def mustNot (clause : Json) : Json := single "bool" (single "must_not" (.array [clause]))

/-- The documents that match at least one of the clauses. -/
def anyOf (clauses : List Json) : Json :=
  single "bool" (.ofMembers [("should", .array clauses), ("minimum_should_match", .nat 1)])

/-- The characters with a backslash before each that is special in a wildcard pattern. -/
def escapeWildcard : List Char → List Char
  | [] => []
  | c :: rest =>
    if c = '\\' || c = '*' || c = '?' then '\\' :: c :: escapeWildcard rest
    else c :: escapeWildcard rest

/-- The wildcard pattern of the texts that contain a text. -/
def containing (text : String) : String := String.ofList ('*' :: escapeWildcard text.toList ++ ['*'])

/-- The documents whose value lies as the bounds say. -/
def range (path : String) (bounds : List (String × Json)) : Json :=
  single "range" (single path (.ofMembers bounds))

/-- The documents that have the field. -/
def has (path : String) : Json := single "exists" (single "field" (.string path))

/-- The full-text clause over every field. -/
def everywhere (type : String) (value : Json) : Json :=
  single "multi_match" (.ofMembers
    [("query", value), ("fields", .strings [Filter.allFields]), ("type", .string type)])

/-- The clause of a comparison. -/
def ofComparison (comparison : Comparison) : Json :=
  let exact := comparison.column.exactPath
  let path := comparison.column.path
  let value := comparison.value
  let text := value.string?.getD ""
  let term (value : Json) := single "term" (single exact value)
  let terms := single "terms" (single exact value)
  let wildcard := single "wildcard" (single exact (single "value" (.string (containing text))))
  let startsWith := single "prefix" (single exact value)
  let (lower, upper) := Predicate.bounds value
  match comparison.operator with
  | .eq => term value
  | .notEq => mustNot (term value)
  | .gt => range path [("gt", value)]
  | .gte => range path [("gte", value)]
  | .lt => range path [("lt", value)]
  | .lte => range path [("lte", value)]
  | .isIn => terms
  | .notIn => mustNot terms
  | .like => wildcard
  | .notLike => mustNot wildcard
  | .startsWith => startsWith
  | .notStartsWith => mustNot startsWith
  | .regex => single "regexp" (single exact value)
  | .range | .between => range path [("gte", lower), ("lte", upper)]
  | .outRange => anyOf [range path [("lt", lower)], range path [("gt", upper)]]
  | .before =>
    let (amount, unit) := Predicate.offset value
    range path [("lt", .string ("now-" ++ amount ++ unit))]
  | .exist | .notNull => has path
  | .notExist | .null => mustNot (has path)
  | .empty => term (.string "")
  | .notEmpty =>
    single "bool" (.ofMembers
      [("filter", .array [has path]), ("must_not", .array [term (.string "")])])
  | .fullText =>
    if path = Filter.allFields then everywhere "best_fields" value
    else single "match" (single path value)
  | .phrase =>
    if path = Filter.allFields then everywhere "phrase" value
    else single "match_phrase" (single path value)
  | .all | .any => .null

end Clause

namespace Predicate

mutual

/-- The search clause of a predicate. -/
def clause : Predicate → Json
  | .all parts =>
    Clause.single "bool"
      (Clause.single (if anyNeedsScoring parts then "must" else "filter") (.array (clauses parts)))
  | .any parts => Clause.anyOf (clauses parts)
  | .leaf comparison => Clause.ofComparison comparison

/-- The search clauses of the predicates. -/
def clauses : List Predicate → List Json
  | [] => []
  | part :: rest => clause part :: clauses rest

end

end Predicate

namespace Filter

/-- The search clause of a filter and whether it scores; an empty filter has none. -/
def clause? (addressing : Addressing) (fields : FieldSet) (filter : Option Filter) :
    Except FilterError (Option (Json × Bool)) :=
  match nonEmpty? filter with
  | none => .ok none
  | some filter =>
    (Predicate.ofFilter addressing fields filter).map fun predicate =>
      some (predicate.clause, predicate.needsScoring)

end Filter

end ViewCompiler
