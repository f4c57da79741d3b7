import ViewCompiler.Sql.Page

/-!
# Conditions added to statements

`Sql.Restriction` is a statement with the conditions that are to narrow it, `Restriction.build`
the narrowed statement. A plain statement takes the conditions before its first `GROUP BY`,
`ORDER BY`, `HAVING` or `LIMIT`, joined to the condition it has; one with another `SELECT` inside
becomes a subquery.
-/

namespace ViewCompiler

namespace Sql

/-- A statement with the conditions that are to narrow it. -/
structure Restriction where
  /-- The statement. -/
  base : String
  /-- The conditions, none of them blank. -/
  conditions : List String := []
  deriving DecidableEq, Repr, Inhabited

/-- How a statement takes conditions. -/
inductive Shape where
  /-- As a subquery. -/
  | nested (base : List Char)
  /-- By a condition of its own, which the rest of the statement follows. -/
  | narrowed (before existing rest : List Char)
  /-- Before the first clause that follows a condition. -/
  | divided (before rest : List Char)
  /-- At its end. -/
  | plain (base : List Char)
  deriving DecidableEq, Repr

namespace Restriction

/-- Add a condition; a blank one is passed over. -/
def add (restriction : Restriction) (condition : String) : Restriction :=
  let trimmed := Text.trim condition.toList
  if trimmed.isEmpty then restriction
  else { restriction with conditions := restriction.conditions ++ [String.ofList trimmed] }

/-- Add a condition if there is one. -/
def add? (restriction : Restriction) : Option String → Restriction
  | none => restriction
  | some condition => restriction.add condition

/-- A text in parentheses. -/
def parenthesised (text : String) : String := "(" ++ text ++ ")"

/-- All conditions as one; a single one stays bare unless it has to be in parentheses. -/
def joined (restriction : Restriction) (always : Bool) : String :=
  match restriction.conditions with
  | [condition] => if always then parenthesised condition else condition
  | conditions => Text.join " AND " (conditions.map parenthesised)

/-- Must the statement become a subquery? -/
def isNested (shown : List Char) : Bool :=
  (Text.trimStart shown).head? = some '(' || countUpTo selectKeyword shown 2 > 1

/-- How a statement takes conditions. Comments and semicolons at its end are left out. -/
def shape (base : String) : Shape :=
  let kept := body (cells .code base.toList)
  let code := chars kept
  let shown := kept.map Cell.face
  if isNested shown then .nested code
  else match find? whereKeyword shown with
    | some keyword =>
      let boundary := match findAfter? boundaryKeyword shown keyword.stop with
        | some span => span.start
        | none => code.length
      .narrowed (code.take keyword.start) ((code.take boundary).drop keyword.stop)
        (code.drop boundary)
    | none => match find? boundaryKeyword shown with
      | some span => .divided (code.take span.start) (code.drop span.start)
      | none => .plain code

/-- The narrowed statement. -/
def build (restriction : Restriction) : String :=
  let text (cs : List Char) : String := String.ofList cs
  if restriction.conditions.isEmpty then restriction.base
  else match shape restriction.base with
    | .nested base =>
      "SELECT * FROM (" ++ text base ++ ") AS subquery WHERE " ++ restriction.joined false
    | .narrowed before existing rest =>
      let spliced := text before ++ "WHERE (" ++ text (Text.trim existing) ++ ") AND " ++
        restriction.joined true
      let rest := Text.trim rest
      if rest.isEmpty then spliced else spliced ++ " " ++ text rest
    | .divided before rest =>
      text (Text.trimEnd before) ++ " WHERE " ++ restriction.joined false ++ " " ++ text rest
    | .plain base => text (Text.trimEnd base) ++ " WHERE " ++ restriction.joined false

end Restriction

end Sql

end ViewCompiler
