import ViewCompiler.Sql.Name
import ViewCompiler.Sql.Selection

/-!
# Clauses of queries

The parts of a query around its expressions: orders, windows and their frames, what follows a star,
samples, fetched rows and locks. The readers take the reader of expressions as an argument.
-/

namespace ViewCompiler

namespace Sql

open Reading

/-- A phrase with a blank before it, or nothing. -/
def afterBlank : Option String → String
  | none => ""
  | some text => " " ++ text

/-- Parts with a keyword before them, or nothing if there is no part. -/
def clause (keyword : String) (parts : List String) : String :=
  if parts.isEmpty then "" else " " ++ keyword ++ " " ++ Text.join ", " parts

/-- The bound of a window frame. -/
def readFrameBound (expr : Reading Term) : Reading String := do
  if ← takeKeywords ["current", "row"] then return "CURRENT ROW"
  else
    let amount ← (do
      if ← takeKeyword "unbounded" then return "UNBOUNDED"
      else return (← expr).text)
    match ← takeKeywordOf ["preceding", "following"] with
    | some direction => return amount ++ " " ++ capitals direction
    | none => failure

/-- The frame of a window, if there is one. -/
def readFrame (expr : Reading Term) : Reading String := do
  match ← takeKeywordOf ["rows", "range", "groups"] with
  | none => return ""
  | some unit =>
    if ← takeKeyword "between" then
      let low ← readFrameBound expr
      keyword "and"
      let high ← readFrameBound expr
      return capitals unit ++ " BETWEEN " ++ low ++ " AND " ++ high
    else return capitals unit ++ " " ++ (← readFrameBound expr)

/-- A term to sort by. -/
def readOrderItem (expr : Reading Term) : Reading String := do
  let term ← expr
  let direction ← takePhrase [["asc"], ["desc"]]
  let nulls ← takePhrase [["nulls", "first"], ["nulls", "last"]]
  return term.text ++ afterBlank direction ++ afterBlank nulls

/-- The terms to sort by, if there are any. -/
def readOrder (expr : Reading Term) (fuel : Nat) : Reading (List String) := do
  if ← takeKeywords ["order", "by"] then commaSeparated (readOrderItem expr) fuel else return []

/-- A window, between parentheses or by its name. -/
def readWindow (expr : Reading Term) (fuel : Nat) : Reading String := do
  if ← takeSymbol "(" then
    let partition ← (do
      if ← takeKeywords ["partition", "by"] then
        return (← commaSeparated expr fuel).map Term.text
      else return [])
    let order ← readOrder expr fuel
    let frame ← readFrame expr
    symbol ")"
    let parts := [if partition.isEmpty then "" else "PARTITION BY " ++ Text.join ", " partition,
      if order.isEmpty then "" else "ORDER BY " ++ Text.join ", " order, frame]
    return "(" ++ Text.join " " (parts.filter (· ≠ "")) ++ ")"
  else return (← readName).2

/-- A window with the name that it has in a query. -/
def readNamedWindow (expr : Reading Term) (fuel : Nat) : Reading String := do
  let name ← readName
  keyword "as"
  return name.2 ++ " AS " ++ (← readWindow expr fuel)

/-- The windows that a query names, if it names any. -/
def readWindows (expr : Reading Term) (fuel : Nat) : Reading String := do
  if ← takeKeyword "window" then
    return clause "WINDOW" (← commaSeparated (readNamedWindow expr fuel) fuel)
  else return ""

/-- A name between parentheses with others, or alone. -/
def readNameOrList {α : Type} (item : Reading α) (fuel : Nat) (text : α → String) :
    Reading String := do
  if ← takeSymbol "(" then
    let names ← commaSeparated item fuel
    symbol ")"
    return "(" ++ Text.join ", " (names.map text) ++ ")"
  else return text (← item)

/-- A name and the one that it is changed to. -/
def readRenaming : Reading String := do
  let name ← readName
  keyword "as"
  return name.2 ++ " AS " ++ (← readName).2

/-- A term that takes the place of a column. -/
def readReplacement (expr : Reading Term) : Reading String := do
  let term ← expr
  let marked ← takeKeyword "as"
  return term.text ++ (if marked then " AS " else " ") ++ (← readName).2

/-- What may follow a star: the columns that it leaves out, replaces or renames. -/
def readStarOptions (expr : Reading Term) (fuel : Nat) : Reading String := do
  let pattern ← (do
    if ← takeKeyword "ilike" then return " ILIKE " ++ (← readLiteral) else return "")
  let excluded ← (do
    if pattern = "" && (← takeKeyword "exclude") then
      return " EXCLUDE " ++ (← readNameOrList readName fuel Prod.snd)
    else return "")
  let excepted ← (do
    if ← takeKeyword "except" then
      return " EXCEPT " ++ (← readNameOrList readName fuel Prod.snd)
    else return "")
  let replaced ← (do
    if ← takeKeyword "replace" then
      ensure (← isSymbol "(")
      return " REPLACE " ++ (← readNameOrList (readReplacement expr) fuel id)
    else return "")
  let renamed ← (do
    if ← takeKeyword "rename" then
      return " RENAME " ++ (← readNameOrList readRenaming fuel id)
    else return "")
  return pattern ++ excluded ++ excepted ++ replaced ++ renamed

/-- The sample that is taken of a table, if one is. -/
def readSample (expr : Reading Term) : Reading String := do
  match ← takeKeywordOf ["tablesample", "sample"] with
  | none => return ""
  | some word =>
    let method ← takeKeywordOf ["bernoulli", "row", "system", "block"]
    symbol "("
    let amount ← expr
    let unit ← takeKeywordOf ["rows", "percent"]
    symbol ")"
    let seed ← (do
      match ← takeKeywordOf ["repeatable", "seed"] with
      | none => return ""
      | some word =>
        symbol "("
        let seed ← readLiteral
        symbol ")"
        return " " ++ capitals word ++ " (" ++ seed ++ ")")
    return " " ++ capitals word ++ afterBlank (method.map capitals) ++ " (" ++ amount.text ++
      afterBlank (unit.map capitals) ++ ")" ++ seed

/-- The percent sign and the ties of a count of rows. -/
def readCountOptions : Reading String := do
  let percent ← takeKeyword "percent"
  let ties ← takeKeywords ["with", "ties"]
  return (if percent then " PERCENT" else "") ++ (if ties then " WITH TIES" else "")

/-- The rows that are fetched. -/
def readFetch : Reading String := do
  if ← takeKeyword "fetch" then
    ensure (← takeKeywordOf ["first", "next"]).isSome
    let count ← (do
      if ← isKeywordOf ["row", "rows"] then return ""
      else
        let count ← readLiteral
        let percent ← takeKeyword "percent"
        return " " ++ count ++ (if percent then " PERCENT" else ""))
    ensure (← takeKeywordOf ["row", "rows"]).isSome
    let last ← takePhrase [["only"], ["with", "ties"]]
    ensure last.isSome
    return " FETCH FIRST" ++ count ++ " ROWS" ++ afterBlank last
  else return ""

/-- The locks that a query takes. -/
def readLocks : Nat → Reading String
  | 0 => failure
  | fuel + 1 => do
    if ← takeKeyword "for" then
      match ← takeKeywordOf ["update", "share"] with
      | none => failure
      | some lock =>
        let relation ← (do
          if ← takeKeyword "of" then return " OF " ++ dotted (← readNames fuel) else return "")
        let wait ← takePhrase [["nowait"], ["skip", "locked"]]
        return " FOR " ++ capitals lock ++ relation ++ afterBlank wait ++ (← readLocks fuel)
    else return ""

end Sql

end ViewCompiler
