import ViewCompiler.Sql.Token

/-!
# What queries select

* `Sql.Term`: the normal text of an expression, and the column if it is nothing but a name.
* `Sql.SelectItem`, `Sql.Selection`: what a query selects.

The normal text has single blanks around operators, keywords in capitals, names and function names
as they are written, and texts requoted.
-/

namespace ViewCompiler

namespace Sql

/-- The normal text of an expression. -/
structure Term where
  /-- The normal text. -/
  text : String
  /-- The last part of the name, if the expression is a name. -/
  column : Option String := none
  deriving DecidableEq, Repr, Inhabited

/-- What a query selects. -/
inductive SelectItem where
  /-- Every column, of one relation or of all. -/
  | star (text : String)
  /-- An expression, which may have a name. -/
  | expr (term : Term) (label : Option String) (text : String)
  deriving DecidableEq, Repr, Inhabited

/-- The normal text of an item. -/
def SelectItem.text : SelectItem → String
  | .star text => text
  | .expr _ _ text => text

/-- A query. -/
structure Selection where
  /-- The normal text. -/
  text : String
  /-- What the left-most `SELECT` selects; nothing if rows are listed. -/
  items : Option (List SelectItem)
  deriving DecidableEq, Repr, Inhabited

end Sql

end ViewCompiler
