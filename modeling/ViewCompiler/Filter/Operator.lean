/-!
# Filter operators

`Operator` lists the operators that a filter may name, `Operator.ofName?` reads their names, and
the predicates say what kind of value an operator takes.
-/

namespace ViewCompiler

/-- An operator of a filter. -/
inductive Operator where
  | all
  | any
  | eq
  | notEq
  | gt
  | gte
  | lt
  | lte
  | isIn
  | notIn
  | like
  | notLike
  | startsWith
  | notStartsWith
  | regex
  | range
  | outRange
  | between
  | before
  | exist
  | notExist
  | empty
  | notEmpty
  | null
  | notNull
  | fullText
  | phrase
  deriving DecidableEq, Repr, Inhabited

namespace Operator

/-- The operators with the names they are read from. -/
def table : List (String × Operator) :=
  [("and", all), ("or", any),
    ("==", eq), ("eq", eq), ("!=", notEq), ("not_eq", notEq),
    (">", gt), ("gt", gt), (">=", gte), ("gte", gte),
    ("<", lt), ("lt", lt), ("<=", lte), ("lte", lte),
    ("in", isIn), ("not_in", notIn),
    ("like", like), ("not_like", notLike),
    ("prefix", startsWith), ("not_prefix", notStartsWith),
    ("regex", regex), ("range", range), ("out_range", outRange), ("between", between),
    ("before", before), ("exist", exist), ("not_exist", notExist),
    ("empty", empty), ("not_empty", notEmpty), ("null", null), ("not_null", notNull),
    ("match", fullText), ("match_phrase", phrase)]

/-- The operator with a name. -/
def ofName? (name : String) : Option Operator :=
  (table.find? fun entry => entry.1 = name).map Prod.snd

/-- Does the operator join other filters? -/
def isLogical : Operator → Bool
  | all | any => true
  | _ => false

/-- Does the operator test presence, without a value? -/
def takesNoValue : Operator → Bool
  | exist | notExist | empty | notEmpty | null | notNull => true
  | _ => false

/-- Does the operator take a single scalar? -/
def takesSingleValue : Operator → Bool
  | eq | notEq | gt | gte | lt | lte | like | notLike | startsWith | notStartsWith | regex
  | fullText | phrase => true
  | _ => false

/-- Does the operator take a string pattern? -/
def takesPattern : Operator → Bool
  | like | notLike | startsWith | notStartsWith | regex => true
  | _ => false

/-- Does the operator contribute to the relevance of a document? -/
def isScoring : Operator → Bool
  | fullText | phrase => true
  | _ => false

end Operator

end ViewCompiler
