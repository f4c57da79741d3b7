import ViewCompiler.Sql.Selection

/-!
# Readers of embedded languages

Filters hold regular expressions and sql nodes hold statements. Which texts these are, and what a
statement selects, is not decided here: a `Readers` is a parameter of every check that asks it.
-/

namespace ViewCompiler

/-- How the languages are read that filters and nodes hold texts of. -/
class Readers where
  /-- Is the text a regular expression? -/
  isPattern : String → Bool
  /-- What the statements of a text select, where one that is no query selects nothing; `none` if
  the text is not SQL. -/
  statements? : String → Option (List (Option Sql.Selection))

end ViewCompiler
