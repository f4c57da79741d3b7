import ViewCompiler.Filter.Predicate
import ViewCompiler.Sql.Quote

/-!
# SQL conditions

`Predicate.condition` writes a predicate as an SQL condition. Two or more joined parts stand in
parentheses; no part at all is the condition that always holds. Names are quoted, texts are
literals, so nothing of a value is read as SQL. Full-text operators and the column of all fields
have no SQL form.
-/

namespace ViewCompiler

namespace Comparison

/-- The literal of a value that must be a scalar. -/
def literal (comparison : Comparison) (value : Json) : Except FilterError String :=
  match Sql.literal? value with
  | some text => .ok text
  | none =>
    .error (.invalidValue comparison.column.column comparison.operation "expected a scalar")

/-- The literals of the items of the value. -/
def literals (comparison : Comparison) : Except FilterError String :=
  ((comparison.value.items?.getD []).mapM comparison.literal).map (Text.join ", ")

/-- The operator has no SQL form. -/
def unsupported (comparison : Comparison) : FilterError :=
  .unsupportedTarget comparison.operation "SQL"

/-- The interval that a unit of time offsets stands for. -/
def intervalUnit (unit : String) : String :=
  if unit = "s" then "second"
  else if unit = "m" then "minute"
  else if unit = "h" then "hour"
  else if unit = "w" then "week"
  else if unit = "M" then "month"
  else if unit = "y" then "year"
  else "day"

/-- The SQL condition of a comparison. -/
def condition (comparison : Comparison) : Except FilterError String :=
  if comparison.column.column = Filter.allFields then .error comparison.unsupported
  else
    let column := Sql.quoteIdent comparison.column.column
    let value := comparison.value
    let text := value.string?.getD ""
    let compare (sign : String) : Except FilterError String :=
      (comparison.literal value).map fun literal => column ++ sign ++ literal
    let pattern (sign start : String) : Except FilterError String :=
      .ok (column ++ sign ++ Sql.quoteString (start ++ Sql.escapeLike text ++ "%"))
    let (lower, upper) := Predicate.bounds value
    match comparison.operator with
    | .eq => compare " = "
    | .notEq => compare " <> "
    | .gt => compare " > "
    | .gte => compare " >= "
    | .lt => compare " < "
    | .lte => compare " <= "
    | .isIn => comparison.literals.map fun list => column ++ " IN (" ++ list ++ ")"
    | .notIn => comparison.literals.map fun list => column ++ " NOT IN (" ++ list ++ ")"
    | .like => pattern " LIKE " "%"
    | .notLike => pattern " NOT LIKE " "%"
    | .startsWith => pattern " LIKE " ""
    | .notStartsWith => pattern " NOT LIKE " ""
    | .regex => .ok ("regexp_like(" ++ column ++ ", " ++ Sql.quoteString text ++ ")")
    | .range | .between => do
      let lower ← comparison.literal lower
      let upper ← comparison.literal upper
      return column ++ " BETWEEN " ++ lower ++ " AND " ++ upper
    | .outRange => do
      let lower ← comparison.literal lower
      let upper ← comparison.literal upper
      return "(" ++ column ++ " < " ++ lower ++ " OR " ++ column ++ " > " ++ upper ++ ")"
    | .before =>
      let (amount, unit) := Predicate.offset value
      .ok (column ++ " < date_add('" ++ intervalUnit unit ++ "', -" ++ amount ++ ", now())")
    | .exist | .notNull => .ok (column ++ " IS NOT NULL")
    | .notExist | .null => .ok (column ++ " IS NULL")
    | .empty => .ok (column ++ " = ''")
    | .notEmpty => .ok ("(" ++ column ++ " IS NOT NULL AND " ++ column ++ " <> '')")
    | .fullText | .phrase | .all | .any => .error comparison.unsupported

end Comparison

namespace Predicate

/-- Conditions joined by an operator: in parentheses if there are two or more. -/
def joined (operator : String) : List String → String
  | [] => "1 = 1"
  | [part] => part
  | parts => "(" ++ Text.join operator parts ++ ")"

mutual

/-- The SQL condition of a predicate. -/
def condition : Predicate → Except FilterError String
  | .all parts => (conditions parts).map (joined " AND ")
  | .any parts => (conditions parts).map (joined " OR ")
  | .leaf comparison => comparison.condition

/-- The SQL conditions of the predicates. -/
def conditions : List Predicate → Except FilterError (List String)
  | [] => .ok []
  | part :: rest => do
    let first ← condition part
    let rest ← conditions rest
    return first :: rest

end

end Predicate

namespace Filter

/-- The SQL condition of a filter; an empty filter has none. -/
def condition? (addressing : Addressing) (fields : FieldSet) (filter : Option Filter) :
    Except FilterError (Option String) :=
  match nonEmpty? filter with
  | none => .ok none
  | some filter => do
    let predicate ← Predicate.ofFilter addressing fields filter
    let condition ← predicate.condition
    return some condition

end Filter

end ViewCompiler
