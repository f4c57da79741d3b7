import ViewCompiler.Sql.Reading

/-!
# Names, literals and words of queries

* `Sql.readName`, `Sql.readNames`: names, plain and dotted, with their normal texts.
* `Sql.readLiteral`: numbers and texts.
* `Sql.readAlias`: the name that an item or a relation is given. Without `AS` it must not be one of
  the words with which the query may go on.
-/

namespace ViewCompiler

namespace Sql

open Reading

/-! ### Names and literals -/

/-- The characters of a quoted text in its normal form. A quote is written twice, unless a
backslash stands before it; two quotes together stay two. -/
def requoted (quote previous : Char) : List Char → List Char
  | [] => []
  | [c] => if c = quote && previous ≠ '\\' then [c, c] else [c]
  | c :: d :: rest =>
    if c = quote then
      if previous = '\\' then c :: requoted quote previous (d :: rest)
      else if d = quote then c :: c :: requoted quote c rest
      else c :: c :: requoted quote c (d :: rest)
    else c :: requoted quote c (d :: rest)

/-- A text between quotes in its normal form. -/
def enclosedNormal (quote : Char) (value : String) : String :=
  String.ofList (quote :: requoted quote ' ' value.toList ++ [quote])

/-- A name in its normal form. -/
def nameText (value : String) : Option Char → String
  | none => value
  | some quote => enclosedNormal quote value

/-- A name: its value and its normal text. -/
def readName : Reading (String × String) := do
  match ← next with
  | .word value quote => return (value, nameText value quote)
  | .string value => return (value, enclosedNormal '\'' value)
  | _ => failure

/-- The parts of a dotted name. -/
def readNames : Nat → Reading (List (String × String))
  | 0 => failure
  | fuel + 1 => do
    let first ← readName
    if ← takeSymbol "." then
      let rest ← readNames fuel
      return first :: rest
    else return [first]

/-- The normal text of a dotted name. -/
def dotted (names : List (String × String)) : String := Text.join "." (names.map Prod.snd)

/-- A number or a text. -/
def readLiteral : Reading String := do
  match ← next with
  | .number text => return text
  | .string value => return enclosedNormal '\'' value
  | .literal text => return text
  | _ => failure

/-- A whole number. -/
def readCount : Reading String := do
  match ← next with
  | .number text => do
    ensure (text.toList.all Text.isAsciiDigit)
    return text
  | _ => failure

/-! ### Words with a meaning of their own -/

/-- The units of time spans. -/
def timeUnits : List String :=
  ["year", "years", "month", "months", "week", "weeks", "day", "days", "hour", "hours", "minute",
    "minutes", "second", "seconds", "millisecond", "milliseconds", "microsecond", "microseconds",
    "quarter", "century", "decade", "dow", "doy", "epoch", "isodow", "isoyear", "julian",
    "millennium", "nanosecond", "nanoseconds", "timezone", "timezone_hour", "timezone_minute",
    "date", "datetime", "time", "isoweek", "dayofweek", "dayofyear"]

/-- The words that name no column of a select list. -/
def reservedLabels : List String :=
  ["with", "explain", "analyze", "select", "where", "group", "sort", "having", "order", "top",
    "lateral", "view", "limit", "offset", "fetch", "union", "except", "intersect", "cluster",
    "distribute", "returning", "from", "into", "end"]

/-- The words that name no relation. -/
def reservedRelations : List String :=
  ["with", "explain", "analyze", "select", "where", "group", "sort", "having", "order", "pivot",
    "unpivot", "top", "lateral", "view", "limit", "offset", "fetch", "union", "except",
    "intersect", "on", "join", "inner", "cross", "full", "left", "right", "natural", "using",
    "cluster", "distribute", "outer", "set", "qualify", "window", "end", "for", "partition",
    "prewhere", "settings", "format", "start", "connect", "match_recognize", "sample",
    "tablesample"]

/-- The functions that are called by their name alone. -/
def bareFunctions : List String := ["current_catalog", "current_user", "session_user", "user"]

/-- The functions of the present time, which may do without parentheses. -/
def timeFunctions : List String :=
  ["current_timestamp", "current_time", "current_date", "localtime", "localtimestamp"]

/-- A unit of time: a known one in capitals, any other as it is written. -/
def readUnit : Reading String := do
  match ← takeKeywordOf timeUnits with
  | some unit => return capitals unit
  | none => return (← readName).2

/-- The words that are no names even where they have no meaning of their own. -/
def reservedNames : List String := ["exists", "interval", "struct", "trim"]

/-- A name after an optional `AS`; without it the word must not be one of the reserved. -/
def readAlias (reserved : List String) : Reading (Option (String × String)) := do
  let marked ← takeKeyword "as"
  match ← peek? with
  | some (.word value quote) =>
    if marked || quote.isSome ||
        !reserved.contains (String.ofList (value.toList.map Text.asciiLower)) then
      let _ ← next
      return some (value, nameText value quote)
    else return none
  | some (.string value) =>
    let _ ← next
    return some (value, enclosedNormal '\'' value)
  | _ => if marked then failure else return none

end Sql

end ViewCompiler
