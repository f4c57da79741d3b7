import ViewCompiler.Json.Printer

/-!
# Quoted names and literals

* `Sql.quoteIdent` puts a name between double quotes, `Sql.quoteString` a text between single
  quotes; a quote inside is written twice.
* `Sql.literal?` writes a scalar as a literal; an array or object has none.
* `Sql.escapeLike` makes a text match only itself inside a `LIKE` pattern.
-/

namespace ViewCompiler

namespace Sql

/-- The text with every `quote` written twice. -/
def doubled (quote : Char) : List Char → List Char
  | [] => []
  | c :: rest => if c = quote then c :: c :: doubled quote rest else c :: doubled quote rest

/-- The text between two quotes, with the quotes inside written twice. -/
def enclosed (quote : Char) (cs : List Char) : List Char :=
  quote :: doubled quote cs ++ [quote]

/-- A name between double quotes. -/
def quoteIdent (name : String) : String := String.ofList (enclosed '"' name.toList)

/-- A quoted name after a qualifier. -/
def quoteQualified (qualifier name : String) : String := qualifier ++ "." ++ quoteIdent name

/-- A text between single quotes. -/
def quoteString (text : String) : String := String.ofList (enclosed '\'' text.toList)

/-- A scalar as a literal. -/
def literal? : Json → Option String
  | .null => some "NULL"
  | .bool true => some "TRUE"
  | .bool false => some "FALSE"
  | .number n => some (String.ofList n.text)
  | .string s => some (quoteString s)
  | .array _ => none
  | .object _ => none

/-- Has the character a meaning of its own in a `LIKE` pattern? -/
def isLikeSpecial (c : Char) : Bool := c = '%' || c = '_' || c = '\\'

/-- The characters with a backslash before each that is special in a `LIKE` pattern. -/
def escapeLikeChars : List Char → List Char
  | [] => []
  | c :: rest => if isLikeSpecial c then '\\' :: c :: escapeLikeChars rest
    else c :: escapeLikeChars rest

/-- The text with the special characters of a `LIKE` pattern escaped. -/
def escapeLike (text : String) : String := String.ofList (escapeLikeChars text.toList)

end Sql

end ViewCompiler
