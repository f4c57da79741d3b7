import ViewCompiler.Sql.Keyword
import ViewCompiler.Sql.Mask

/-!
# Limits of statements

* `Sql.hasLimit`: does a statement end with a limit of its own?
* `Sql.addPage`: a statement with a limit. One that has a limit stays as it is; else the limit
  goes right after the code, semicolons at the end are dropped and comments stay behind it.
-/

namespace ViewCompiler

namespace Sql

/-- Does the statement end with a limit? Comments and a semicolon may follow it. -/
def hasLimit (sql : String) : Bool := endsWithLimit false (faces sql.toList)

/-- The cells without the blanks, the semicolons and again the blanks at their end. -/
def body (cs : List Cell) : List Cell :=
  let blank (cell : Cell) : Bool := Text.isBlank cell.face
  let trimmed (cs : List Cell) : List Cell := (cs.reverse.dropWhile blank).reverse
  trimmed ((trimmed cs).reverse.dropWhile fun cell => cell.face = ';').reverse

/-- The characters of cells. -/
def chars (cs : List Cell) : List Char := cs.map Cell.char

/-- The clause for a page. -/
def pageClause (limit offset : Nat) : String :=
  if offset > 0 then s!"LIMIT {limit} OFFSET {offset}" else s!"LIMIT {limit}"

/-- The statement with a limit, unless it has one. -/
def addPage (sql : String) (limit offset : Nat) : String :=
  if hasLimit sql then sql
  else
    let all := cells .code sql.toList
    let kept := body all
    let head := Text.trimEnd (chars kept)
    let after := (all.drop kept.length).filter fun cell => cell.face ≠ ';'
    let tail := Text.trim (chars after)
    let paged := String.ofList head ++ " " ++ pageClause limit offset
    if tail.isEmpty then paged else paged ++ " " ++ String.ofList tail

/-- The statement with a limit from its first row on, unless it has one. -/
def addLimit (sql : String) (limit : Nat) : String := addPage sql limit 0

end Sql

end ViewCompiler
