import ViewCompiler.Sql.Reading

/-!
# Operators of expressions

`Sql.nextBinding` tells how strongly the operator that comes next binds. From the weakest on:
`OR`, `AND`, `NOT`, arrows, `IS`, patterns, comparisons, `|`, `^`, `&`, sums, products, casts.
-/

namespace ViewCompiler

namespace Sql

open Reading

/-- How strongly operators bind. -/
structure Binding where
  cast : Nat := 50
  zone : Nat := 41
  product : Nat := 40
  sum : Nat := 30
  exclusive : Nat := 24
  bitAnd : Nat := 23
  shift : Nat := 22
  bitOr : Nat := 21
  comparison : Nat := 20
  pattern : Nat := 19
  is : Nat := 17
  arrow : Nat := 16
  negation : Nat := 15
  conj : Nat := 10
  disj : Nat := 5

/-- How strongly operators bind. -/
def binding : Binding := {}

/-- The operators between two terms that are signs, how they are normally written and how
strongly they bind. -/
def signOperators : List (String × String × Nat) :=
  [("=", "=", binding.comparison), ("==", "=", binding.comparison),
    ("<>", "<>", binding.comparison), ("!=", "<>", binding.comparison),
    ("<", "<", binding.comparison), ("<=", "<=", binding.comparison),
    (">", ">", binding.comparison), (">=", ">=", binding.comparison),
    ("<=>", "<=>", binding.comparison),
    ("+", "+", binding.sum), ("-", "-", binding.sum),
    ("~", "~", binding.comparison), ("~*", "~*", binding.comparison),
    ("!~", "!~", binding.comparison), ("!~*", "!~*", binding.comparison),
    ("~~", "~~", binding.comparison), ("~~*", "~~*", binding.comparison),
    ("!~~", "!~~", binding.comparison), ("!~~*", "!~~*", binding.comparison),
    ("*", "*", binding.product), ("/", "/", binding.product), ("%", "%", binding.product),
    ("||", "||", binding.product), ("//", "//", binding.product), ("&&", "&&", binding.cast),
    ("&", "&", binding.bitAnd), ("|", "|", binding.bitOr), ("^", "^", binding.shift),
    ("<<", "<<", binding.shift), (">>", ">>", binding.shift),
    ("->", "->", binding.arrow), ("->>", "->>", binding.arrow)]

/-- The operators between two terms that are words and how strongly they bind. -/
def wordOperators : List (String × Nat) :=
  [("or", binding.disj), ("and", binding.conj), ("xor", binding.exclusive)]

/-- A word that stands where an operator would, and is none. -/
def strayOperator : String := "div"

/-- The words of patterns. -/
def patternWords : List String := ["like", "ilike", "rlike", "regexp", "similar"]

/-- How strongly the operator that comes next binds; zero if none does. -/
def nextBinding : Reading Nat := do
  match ← peek? with
  | some (.symbol sign) =>
    if sign = "::" then return binding.cast
    else if sign = "[" then return 100
    else return ((signOperators.find? fun entry => entry.1 = sign).map (·.2.2)).getD 0
  | some token =>
    match token.keyword? with
    | none => return 0
    | some word =>
      let after := (← peekSecond?).bind Token.keyword?
      if word = "not" then
        if after = some "in" || after = some "between" then return binding.comparison
        else if after.any patternWords.contains then return binding.pattern
        else return 0
      else if word = "is" then return binding.is
      else if word = "in" || word = "between" then return binding.comparison
      else if patternWords.contains word then return binding.pattern
      else if word = "at" then return if after = some "time" then binding.zone else 0
      else if word = strayOperator then return binding.product
      else return ((wordOperators.find? fun entry => entry.1 = word).map (·.2)).getD 0
  | none => return 0

/-- What may follow `IS`, one word after another. -/
def isTests : List (List String) :=
  [["null"], ["not", "null"], ["true"], ["not", "true"], ["false"], ["not", "false"],
    ["unknown"], ["not", "unknown"]]

end Sql

end ViewCompiler
