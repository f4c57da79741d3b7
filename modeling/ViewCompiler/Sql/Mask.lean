import ViewCompiler.Text.Basic

/-!
# Masked statements

Before a statement is searched for keywords, its comments and the bodies of its quoted texts and
names are hidden. A statement is scanned from the left by a machine with four kinds of states.

* `Sql.Scan`: where the scan stands, in code, in a comment or between quotes.
* `Sql.faces`: the statement as it shows itself to a search, character by character: a hidden
  character looks like a blank.
* `Sql.mask`: the same as a text in which a hidden character takes as many blanks as it has bytes,
  so that both texts have the same byte offsets.
-/

namespace ViewCompiler

namespace Sql

/-- Where a scan stands. -/
inductive Scan where
  /-- In the code of the statement. -/
  | code
  /-- In a comment that ends with its line. -/
  | lineComment
  /-- In a comment that ends with its mark. -/
  | blockComment
  /-- Between two quotes. -/
  | quoted (quote : Char)
  deriving DecidableEq, Repr, Inhabited

/-- A character of a statement and whether it belongs to the code. -/
structure Cell where
  char : Char
  shown : Bool
  deriving DecidableEq, Repr, Inhabited

namespace Cell

/-- How the cell looks to a search. -/
def face (cell : Cell) : Char := if cell.shown then cell.char else ' '

/-- The cell as characters of the masked text. -/
def masked (cell : Cell) : List Char :=
  if cell.shown then [cell.char] else List.replicate cell.char.utf8Size ' '

end Cell

/-- A character that belongs to the code. -/
def shown (c : Char) : Cell := ⟨c, true⟩

/-- A character that is hidden. -/
def hidden (c : Char) : Cell := ⟨c, false⟩

/-- The cells of a text that is scanned from a state on. -/
def cells : Scan → List Char → List Cell
  | _, [] => []
  | .code, '-' :: '-' :: rest => hidden '-' :: hidden '-' :: cells .lineComment rest
  | .code, '/' :: '*' :: rest => hidden '/' :: hidden '*' :: cells .blockComment rest
  | .code, c :: rest =>
    if c = '\'' || c = '"' then shown c :: cells (.quoted c) rest else shown c :: cells .code rest
  | .lineComment, c :: rest =>
    if c = '\n' then shown c :: cells .code rest else hidden c :: cells .lineComment rest
  | .blockComment, '*' :: '/' :: rest => hidden '*' :: hidden '/' :: cells .code rest
  | .blockComment, c :: rest => hidden c :: cells .blockComment rest
  | .quoted quote, c :: d :: rest =>
    if c = quote then
      if d = quote then hidden c :: hidden d :: cells (.quoted quote) rest
      else shown c :: cells .code (d :: rest)
    else hidden c :: cells (.quoted quote) (d :: rest)
  | .quoted quote, [c] => [if c = quote then shown c else hidden c]

/-- Where the scan of a text ends. -/
def scanEnd : Scan → List Char → Scan
  | state, [] => state
  | .code, '-' :: '-' :: rest => scanEnd .lineComment rest
  | .code, '/' :: '*' :: rest => scanEnd .blockComment rest
  | .code, c :: rest => if c = '\'' || c = '"' then scanEnd (.quoted c) rest else scanEnd .code rest
  | .lineComment, c :: rest => if c = '\n' then scanEnd .code rest else scanEnd .lineComment rest
  | .blockComment, '*' :: '/' :: rest => scanEnd .code rest
  | .blockComment, _ :: rest => scanEnd .blockComment rest
  | .quoted quote, c :: d :: rest =>
    if c = quote then
      if d = quote then scanEnd (.quoted quote) rest else scanEnd .code (d :: rest)
    else scanEnd (.quoted quote) (d :: rest)
  | .quoted quote, [c] => if c = quote then .code else .quoted quote

/-- The statement as it shows itself to a search. -/
def faces (cs : List Char) : List Char := (cells .code cs).map Cell.face

/-- The statement with everything hidden blanked out, byte for byte. -/
def mask (sql : String) : String := String.ofList ((cells .code sql.toList).flatMap Cell.masked)

end Sql

end ViewCompiler
