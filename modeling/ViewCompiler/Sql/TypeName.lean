import ViewCompiler.Sql.Name

/-!
# Types in queries

`Sql.readType` reads a type: one with a known name, written in capitals, or any other name as it is
written. A type may have arguments and may be an array.
-/

namespace ViewCompiler

namespace Sql

open Reading

/-- The types that may take one length. -/
def lengthTypes : List String :=
  ["float", "tinyint", "smallint", "mediumint", "int", "integer", "bigint", "int2", "int4", "int8",
    "varchar", "nvarchar", "clob", "binary", "varbinary", "blob", "bytes", "datetime", "string",
    "timestamptz", "int64", "float64", "float4", "float8"]

/-- The types that take no argument. -/
def plainTypes : List String :=
  ["boolean", "bool", "real", "bytea", "uuid", "date", "json", "jsonb", "regclass", "text",
    "tinytext", "mediumtext", "longtext"]

/-- The types that may take a precision and a scale. -/
def exactTypes : List String := ["decimal", "numeric", "dec", "bignumeric", "bigdecimal"]

/-- A length in parentheses, if there is one. -/
def readLength : Reading String := do
  if ← takeSymbol "(" then
    let n ← (do
      if ← takeKeyword "max" then return "MAX"
      else readCount)
    symbol ")"
    return "(" ++ n ++ ")"
  else return ""

/-- A precision and perhaps a scale in parentheses, if there are any. -/
def readPrecision : Reading String := do
  if ← takeSymbol "(" then
    let precision ← readCount
    let scale ← (do
      if ← takeSymbol "," then
        let scale ← readCount
        return "," ++ scale
      else return "")
    symbol ")"
    return "(" ++ precision ++ scale ++ ")"
  else return ""

/-- The time zone of a time, if it is named. -/
def readZone : Reading String := do
  if ← takeKeywords ["with", "time", "zone"] then return " WITH TIME ZONE"
  else if ← takeKeywords ["without", "time", "zone"] then return " WITHOUT TIME ZONE"
  else return ""

/-- A type whose name is known. -/
def readKnownType : Reading String := do
  match (← next).keyword? with
  | none => failure
  | some name =>
    if plainTypes.contains name then return capitals name
    else if lengthTypes.contains name then
      let length ← readLength
      let unsigned ← takeKeyword "unsigned"
      return capitals name ++ length ++ (if unsigned then " UNSIGNED" else "")
    else if exactTypes.contains name then return capitals name ++ (← readPrecision)
    else if name = "double" then
      return if ← takeKeyword "precision" then "DOUBLE PRECISION" else "DOUBLE"
    else if name = "char" || name = "character" then
      let varying ← takeKeyword "varying"
      let length ← readLength
      return capitals name ++ (if varying then " VARYING" else "") ++ length
    else if name = "time" || name = "timestamp" then
      let length ← readLength
      return capitals name ++ length ++ (← readZone)
    else failure

/-- The brackets of an array type. -/
def readArrayMarks : Nat → Reading String
  | 0 => pure ""
  | fuel + 1 => do
    if ← takeSymbol "[" then
      let size ← optional readCount
      symbol "]"
      return "[" ++ size.getD "" ++ "]" ++ (← readArrayMarks fuel)
    else return ""

/-- A type: a known one, or a name with arguments. -/
def readType (fuel : Nat) : Reading String := do
  let base ← readKnownType <|> (do
    let name := dotted (← readNames fuel)
    if ← takeSymbol "(" then
      let arguments ← commaSeparated readLiteral fuel
      symbol ")"
      return name ++ "(" ++ Text.join ", " arguments ++ ")"
    else return name)
  return base ++ (← readArrayMarks fuel)

end Sql

end ViewCompiler
