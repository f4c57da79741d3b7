import ViewCompiler.Sql.Clause
import ViewCompiler.Sql.Operator
import ViewCompiler.Sql.TypeName

/-!
# Expressions and queries

* `Sql.readExpr`: an expression, by the strength of its operators.
* `Sql.readSelect`, `Sql.readQuery`: a single `SELECT` and a whole query. What a query selects is
  what its left-most `SELECT` does.

Expressions hold queries and queries hold expressions, so the readers call each other; each call
takes one unit of `fuel`.
-/

namespace ViewCompiler

namespace Sql

open Reading

mutual

/-- An expression whose operators bind more strongly than `least`. -/
def readExpr : Nat → Nat → Reading Term
  | 0, _ => failure
  | fuel + 1, least => do
    let first ← readOperand fuel
    readOperators fuel least first

/-- The operators after a term that bind more strongly than `least`. -/
def readOperators : Nat → Nat → Term → Reading Term
  | 0, _, _ => failure
  | fuel + 1, least, left => do
    let strength ← nextBinding
    if strength ≤ least then return left
    else
      let term ← readOperator fuel strength left
      readOperators fuel least term

/-- An operator after a term, with what follows it. -/
def readOperator : Nat → Nat → Term → Reading Term
  | 0, _, _ => failure
  | fuel + 1, strength, left => do
    match ← next with
    | .symbol sign =>
      if sign = "::" then return { text := left.text ++ "::" ++ (← readType fuel) }
      else if sign = "[" then
        let index ← readExpr fuel 0
        symbol "]"
        return { text := left.text ++ "[" ++ index.text ++ "]" }
      else
        match signOperators.find? fun entry => entry.1 = sign with
        | none => failure
        | some (_, shown, _) =>
          let quantifier ← takeKeywordOf
            (if strength = binding.comparison then ["any", "all", "some"] else [])
          match quantifier with
          | some word =>
            symbol "("
            let right ← readInside fuel
            symbol ")"
            return { text := left.text ++ " " ++ shown ++ " " ++ capitals word ++
              "(" ++ right ++ ")" }
          | none =>
            let right ← readExpr fuel strength
            return { text := left.text ++ " " ++ shown ++ " " ++ right.text }
    | token =>
      match token.keyword? with
      | none => failure
      | some word =>
        if word = "is" then readIs fuel left
        else if word = "at" then
          ensure (← takeKeywords ["time", "zone"])
          let zone ← readExpr fuel strength
          return { text := left.text ++ " AT TIME ZONE " ++ zone.text }
        else if (wordOperators.map Prod.fst).contains word then
          let right ← readExpr fuel strength
          return { text := left.text ++ " " ++ capitals word ++ " " ++ right.text }
        else
          let negated := word = "not"
          let word ← (do
            if negated then
              match (← next).keyword? with
              | some word => return word
              | none => failure
            else return word)
          readPredicate fuel word (left.text ++ (if negated then " NOT" else ""))

/-- A test for membership, a range or a pattern, after its first word. -/
def readPredicate : Nat → String → String → Reading Term
  | 0, _, _ => failure
  | fuel + 1, word, left => do
    if word = "in" then
      symbol "("
      let list ← readInside fuel
      symbol ")"
      return { text := left ++ " IN (" ++ list ++ ")" }
    else if word = "between" then
      let low ← readExpr fuel binding.comparison
      keyword "and"
      let high ← readExpr fuel binding.comparison
      return { text := left ++ " BETWEEN " ++ low.text ++ " AND " ++ high.text }
    else if patternWords.contains word then
      ensure (word ≠ "similar" || (← takeKeyword "to"))
      let shown := if word = "similar" then "SIMILAR TO" else capitals word
      let any ← takeKeyword "any"
      let pattern ← readExpr fuel binding.pattern
      let escape ← (do
        if ← takeKeyword "escape" then return " ESCAPE " ++ (← readLiteral)
        else return "")
      return { text := left ++ " " ++ shown ++ (if any then " ANY " else " ") ++ pattern.text ++
        escape }
    else failure

/-- What follows `IS`. -/
def readIs : Nat → Term → Reading Term
  | 0, _ => failure
  | fuel + 1, left => do
    match ← takePhrase isTests with
    | some test => return { text := left.text ++ " IS " ++ test }
    | none =>
      match ← takePhrase [["distinct", "from"], ["not", "distinct", "from"]] with
      | some test =>
        let right ← readExpr fuel 0
        return { text := left.text ++ " IS " ++ test ++ " " ++ right.text }
      | none => failure

/-- A query or terms with commas between them. -/
def readInside : Nat → Reading String
  | 0 => failure
  | fuel + 1 => do
    if ← isKeywordOf ["select", "with"] then return (← readQuery fuel).text
    else
      let terms ← commaSeparated (readExpr fuel 0) fuel
      return Text.join ", " (terms.map Term.text)

/-- A term without an operator after it. -/
def readOperand : Nat → Reading Term
  | 0 => failure
  | fuel + 1 => do
    let term ← (do
      match ← peek? with
      | some (.symbol sign) =>
        if sign = "(" then
          symbol "("
          let inside ← readInside fuel
          symbol ")"
          return { text := "(" ++ inside ++ ")" }
        else if sign = "-" || sign = "+" || sign = "~" then
          symbol sign
          let term ← readExpr fuel binding.product
          return { text := sign ++ term.text }
        else if sign = "[" then
          symbol sign
          let items ← (do
            if ← isSymbol "]" then return []
            else commaSeparated (readExpr fuel 0) fuel)
          symbol "]"
          return { text := "[" ++ Text.join ", " (items.map Term.text) ++ "]" }
        else if sign = "?" then
          symbol sign
          return { text := "?" }
        else if sign = ":" || sign = "$" then
          symbol sign
          match ← next with
          | .word value none => return { text := sign ++ value }
          | .number text => return { text := sign ++ text }
          | _ => failure
        else failure
      | some (.word _ none) => readTyped fuel <|> readSpecial fuel <|> readPlain fuel
      | some (.word _ (some _)) => readPlain fuel
      | some _ => return { text := ← readLiteral }
      | none => failure)
    if ← takeKeyword "collate" then
      return { text := term.text ++ " COLLATE " ++ dotted (← readNames fuel) }
    else return term

/-- A text with its type before it. -/
def readTyped : Nat → Reading Term
  | 0 => failure
  | _ + 1 => do
    let type ← readKnownType
    match ← next with
    | .string value => return { text := type ++ " " ++ enclosedNormal '\'' value }
    | _ => failure

/-- A term that starts with a word of special meaning. -/
def readSpecial : Nat → Reading Term
  | 0 => failure
  | fuel + 1 => do
    let first ← next
    match first.keyword? with
    | none => failure
    | some word =>
      if word = "true" || word = "false" then return { text := word }
      else if word = "null" then return { text := "NULL" }
      else if bareFunctions.contains word then return { text := first.spelling }
      else if timeFunctions.contains word then
        let call ← (do
          if ← isSymbol "(" then readCall fuel else return "")
        return { text := first.spelling ++ call }
      else if word = "not" then
        if (← isKeyword "exists") && (← peekSecond?) == some (.symbol "(") then
          keyword "exists"
          symbol "("
          let query ← readQuery fuel
          symbol ")"
          return { text := "NOT EXISTS (" ++ query.text ++ ")" }
        else
          let term ← readExpr fuel binding.negation
          return { text := "NOT " ++ term.text }
      else if word = "exists" then
        symbol "("
        let query ← readQuery fuel
        symbol ")"
        return { text := "EXISTS (" ++ query.text ++ ")" }
      else if word = "case" then readCase fuel
      else if word = "cast" || word = "try_cast" || word = "safe_cast" then
        symbol "("
        let term ← readExpr fuel 0
        keyword "as"
        let type ← readType fuel
        symbol ")"
        return { text := capitals word ++ "(" ++ term.text ++ " AS " ++ type ++ ")" }
      else if word = "interval" then
        let value ← readOperand fuel
        let unit ← takeKeywordOf timeUnits
        let last ← (do
          if unit.isSome && (← takeKeyword "to") then
            match ← takeKeywordOf timeUnits with
            | some last => return " TO " ++ capitals last
            | none => failure
          else return "")
        return { text := "INTERVAL " ++ value.text ++ afterBlank (unit.map capitals) ++ last }
      else if word = "extract" then
        symbol "("
        let unit ← readUnit
        let mark ← (do
          if ← takeSymbol "," then return ", "
          else
            keyword "from"
            return " FROM ")
        let term ← readExpr fuel 0
        symbol ")"
        return { text := "EXTRACT(" ++ unit ++ mark ++ term.text ++ ")" }
      else if word = "position" then
        symbol "("
        let term ← readExpr fuel binding.comparison
        keyword "in"
        let text ← readExpr fuel 0
        symbol ")"
        return { text := "POSITION(" ++ term.text ++ " IN " ++ text.text ++ ")" }
      else if word = "substring" then readSubstring fuel
      else if word = "overlay" then readOverlay fuel
      else if word = "trim" then readTrim fuel
      else if word = "ceil" || word = "floor" then
        symbol "("
        let term ← readExpr fuel 0
        let more ← (do
          if ← takeKeyword "to" then return " TO " ++ (← readUnit)
          else if ← takeSymbol "," then return ", " ++ (← readExpr fuel 0).text
          else return "")
        symbol ")"
        return { text := capitals word ++ "(" ++ term.text ++ more ++ ")" }
      else if word = "array" then
        if ← takeSymbol "(" then
          let query ← readQuery fuel
          symbol ")"
          return { text := "ARRAY(" ++ query.text ++ ")" }
        else
          symbol "["
          let items ← (do
            if ← isSymbol "]" then return []
            else commaSeparated (readExpr fuel 0) fuel)
          symbol "]"
          return { text := "ARRAY[" ++ Text.join ", " (items.map Term.text) ++ "]" }
      else failure

/-- The branches of a case. -/
def readBranches : Nat → Reading String
  | 0 => failure
  | fuel + 1 => do
    keyword "when"
    let condition ← readExpr fuel 0
    keyword "then"
    let result ← readExpr fuel 0
    let branch := " WHEN " ++ condition.text ++ " THEN " ++ result.text
    if ← isKeyword "when" then return branch ++ (← readBranches fuel) else return branch

/-- What follows `CASE`. -/
def readCase : Nat → Reading Term
  | 0 => failure
  | fuel + 1 => do
    let subject ← (do
      if ← isKeyword "when" then return ""
      else return " " ++ (← readExpr fuel 0).text)
    let branches ← readBranches fuel
    let otherwise ← (do
      if ← takeKeyword "else" then return " ELSE " ++ (← readExpr fuel 0).text
      else return "")
    keyword "end"
    return { text := "CASE" ++ subject ++ branches ++ otherwise ++ " END" }

/-- What follows `SUBSTRING`. -/
def readSubstring : Nat → Reading Term
  | 0 => failure
  | fuel + 1 => do
    symbol "("
    let term ← readExpr fuel 0
    let from? ← (do
      if ← takeSymbol "," then return ", " ++ (← readExpr fuel 0).text
      else if ← takeKeyword "from" then return " FROM " ++ (← readExpr fuel 0).text
      else return "")
    let for? ← (do
      if ← takeSymbol "," then return ", " ++ (← readExpr fuel 0).text
      else if ← takeKeyword "for" then return " FOR " ++ (← readExpr fuel 0).text
      else return "")
    symbol ")"
    return { text := "SUBSTRING(" ++ term.text ++ from? ++ for? ++ ")" }

/-- What follows `OVERLAY`. -/
def readOverlay : Nat → Reading Term
  | 0 => failure
  | fuel + 1 => do
    symbol "("
    let term ← readExpr fuel 0
    keyword "placing"
    let placed ← readExpr fuel 0
    keyword "from"
    let start ← readExpr fuel 0
    let length ← (do
      if ← takeKeyword "for" then return " FOR " ++ (← readExpr fuel 0).text else return "")
    symbol ")"
    return { text := "OVERLAY(" ++ term.text ++ " PLACING " ++ placed.text ++ " FROM " ++
      start.text ++ length ++ ")" }

/-- What follows `TRIM`. -/
def readTrim : Nat → Reading Term
  | 0 => failure
  | fuel + 1 => do
    symbol "("
    let side ← takeKeywordOf ["both", "leading", "trailing"]
    let start := match side with
      | some side => capitals side ++ " "
      | none => ""
    let term ← readExpr fuel 0
    if ← takeKeyword "from" then
      let text ← readExpr fuel 0
      symbol ")"
      return { text := "TRIM(" ++ start ++ term.text ++ " FROM " ++ text.text ++ ")" }
    else if ← takeSymbol "," then
      let dropped ← commaSeparated (readExpr fuel 0) fuel
      symbol ")"
      return { text := "TRIM(" ++ start ++ term.text ++ ", " ++
        Text.join ", " (dropped.map Term.text) ++ ")" }
    else
      symbol ")"
      return { text := "TRIM(" ++ start ++ term.text ++ ")" }

/-- A name or a call of a function. -/
def readPlain : Nat → Reading Term
  | 0 => failure
  | fuel + 1 => do
    match ← peek? with
    | some (.word value none) =>
      ensure (!reservedNames.contains (String.ofList (value.toList.map Text.asciiLower)))
    | _ => pure ()
    let names ← readNames fuel
    if ← isSymbol "(" then
      let call ← readCall fuel
      return { text := dotted names ++ call }
    else return { text := dotted names, column := names.getLast?.map Prod.fst }

/-- An argument of a function: a term, a named term or a star. -/
def readArgument : Nat → Reading String
  | 0 => failure
  | fuel + 1 => do
    match ← optional readStar with
    | some star => return star
    | none =>
      let term ← readExpr fuel 0
      if ← takeSymbol "=>" then return term.text ++ " => " ++ (← readExpr fuel 0).text
      else return term.text

/-- The arguments of a call between their parentheses, and what may follow them. -/
def readCall : Nat → Reading String
  | 0 => failure
  | fuel + 1 => do
    let expr := readExpr fuel 0
    symbol "("
    let arguments ← (do
      if ← takeSymbol ")" then return ""
      else
        let quantifier ← takeKeywordOf ["distinct", "all"]
        let list ← commaSeparated (readArgument fuel) fuel
        let nulls ← takePhrase [["ignore", "nulls"], ["respect", "nulls"]]
        let order ← readOrder expr fuel
        let limit ← (do
          if ← takeKeyword "limit" then return " LIMIT " ++ (← expr).text else return "")
        let separator ← (do
          if ← takeKeyword "separator" then return " SEPARATOR " ++ (← readLiteral)
          else return "")
        symbol ")"
        let start := match quantifier with
          | some word => capitals word ++ " "
          | none => ""
        return start ++ Text.join ", " list ++ afterBlank nulls ++ clause "ORDER BY" order ++
          limit ++ separator)
    let within ← (do
      if ← takeKeywords ["within", "group"] then
        symbol "("
        let order ← readOrder expr fuel
        symbol ")"
        return " WITHIN GROUP (ORDER BY " ++ Text.join ", " order ++ ")"
      else return "")
    let filter ← (do
      if ← takeKeyword "filter" then
        symbol "("
        keyword "where"
        let condition ← expr
        symbol ")"
        return " FILTER (WHERE " ++ condition.text ++ ")"
      else return "")
    let nulls ← takePhrase [["ignore", "nulls"], ["respect", "nulls"]]
    let window ← (do
      if ← takeKeyword "over" then return " OVER " ++ (← readWindow expr fuel)
      else return "")
    return "(" ++ arguments ++ ")" ++ within ++ filter ++ afterBlank nulls ++ window

/-- A star, alone or after the name of a relation. -/
def readStar : Reading String := fun tokens =>
  match tokens with
  | .symbol "*" :: rest => some ("*", rest)
  | .word value quote :: .symbol "." :: rest =>
    match readStar rest with
    | some (star, rest) => some (nameText value quote ++ "." ++ star, rest)
    | none => none
  | _ => none

/-- An item of a select list. -/
def readItem : Nat → Reading SelectItem
  | 0 => failure
  | fuel + 1 => do
    match ← optional readStar with
    | some star =>
      return .star (star ++ (← readStarOptions (readExpr fuel 0) fuel))
    | none =>
      let unquotedFrom ← isKeyword "from"
      let term ← readExpr fuel 0
      ensure (!(unquotedFrom && term.column.isSome && !term.text.contains '.'))
      match ← readAlias reservedLabels with
      | some (label, shown) => return .expr term (some label) (term.text ++ " AS " ++ shown)
      | none => return .expr term none term.text

/-- The name of a relation after it, and names for its columns. -/
def readRelationAlias : Nat → Reading String
  | 0 => failure
  | fuel + 1 => do
    match ← readAlias reservedRelations with
    | none => return ""
    | some (_, shown) =>
      if ← takeSymbol "(" then
        let names ← commaSeparated readName fuel
        symbol ")"
        return " AS " ++ shown ++ " (" ++ Text.join ", " (names.map Prod.snd) ++ ")"
      else return " AS " ++ shown

/-- A relation: a subquery, joined relations in parentheses, a table or a table function. -/
def readRelation : Nat → Reading String
  | 0 => failure
  | fuel + 1 => do
    let lateral ← takeKeyword "lateral"
    let start := if lateral then "LATERAL " else ""
    if ← takeSymbol "(" then
      let inside ← (do return (← readQuery fuel).text) <|> readJoined fuel
      symbol ")"
      return start ++ "(" ++ inside ++ ")" ++ (← readRelationAlias fuel)
    else
      let names ← readNames fuel
      let call ← (do
        if ← isSymbol "(" then readCall fuel else return "")
      let label ← readRelationAlias fuel
      return start ++ dotted names ++ call ++ label ++ (← readSample (readExpr fuel 0))

/-- A relation with those joined to it. -/
def readJoined : Nat → Reading String
  | 0 => failure
  | fuel + 1 => do
    let first ← readRelation fuel
    return first ++ (← readJoins fuel)

/-- The relations joined to one. -/
def readJoins : Nat → Reading String
  | 0 => failure
  | fuel + 1 => do
    if ← takeKeywords ["cross", "join"] then
      let right ← readRelation fuel
      return " CROSS JOIN " ++ right ++ (← readJoins fuel)
    else
      let natural ← takeKeyword "natural"
      let kind ← (do
        if ← takeKeywords ["join"] then return some "JOIN"
        else if ← takeKeywords ["inner", "join"] then return some "JOIN"
        else
          match ← takeKeywordOf ["left", "right", "full"] with
          | some side =>
            match ← takeKeywordOf ["outer", "semi", "anti"] with
            | some word =>
              keyword "join"
              return some (capitals side ++ (if word = "outer" then "" else " " ++ capitals word) ++
                " JOIN")
            | none =>
              keyword "join"
              return some (capitals side ++ " JOIN")
          | none => if natural then failure else return none)
      match kind with
      | none => return ""
      | some kind =>
        let right ← readRelation fuel
        let condition ← (do
          if natural then return ""
          else if ← takeKeyword "on" then return " ON " ++ (← readExpr fuel 0).text
          else if ← takeKeyword "using" then
            symbol "("
            let names ← commaSeparated readName fuel
            symbol ")"
            return " USING(" ++ Text.join ", " (names.map Prod.snd) ++ ")"
          else return "")
        let start := if natural then " NATURAL " else " "
        return start ++ kind ++ " " ++ right ++ condition ++ (← readJoins fuel)

/-- A clause that is a keyword with one term. -/
def readTermClause : Nat → String → Reading String
  | 0, _ => failure
  | fuel + 1, word => do
    if ← takeKeyword word then return " " ++ capitals word ++ " " ++ (← readExpr fuel 0).text
    else return ""

/-- A single `SELECT`. -/
def readSelect : Nat → Reading Selection
  | 0 => failure
  | fuel + 1 => do
    keyword "select"
    let all ← takeKeyword "all"
    let distinct ← (do
      if ← takeKeyword "distinct" then
        ensure (!all)
        if ← takeKeyword "on" then
          symbol "("
          let terms ← commaSeparated (readExpr fuel 0) fuel
          symbol ")"
          return "DISTINCT ON (" ++ Text.join ", " (terms.map Term.text) ++ ") "
        else return "DISTINCT "
      else return "")
    let top ← (do
      if ← takeKeyword "top" then
        if ← takeSymbol "(" then
          let count ← readExpr fuel 0
          symbol ")"
          return "TOP (" ++ count.text ++ ")" ++ (← readCountOptions) ++ " "
        else return "TOP " ++ (← readCount) ++ (← readCountOptions) ++ " "
      else return "")
    let items ← commaSeparated (readItem fuel) fuel
    let into ← (do
      if ← takeKeyword "into" then return " INTO " ++ dotted (← readNames fuel)
      else return "")
    let relations ← (do
      if ← takeKeyword "from" then commaSeparated (readJoined fuel) fuel
      else return [])
    let condition ← readTermClause fuel "where"
    let groups ← (do
      if ← takeKeywords ["group", "by"] then
        if ← takeKeyword "all" then return ["ALL"]
        else return (← commaSeparated (readExpr fuel 0) fuel).map Term.text
      else return [])
    let having ← readTermClause fuel "having"
    let windows ← readWindows (readExpr fuel 0) fuel
    let qualify ← readTermClause fuel "qualify"
    let lateWindows ← (do
      if windows = "" then readWindows (readExpr fuel 0) fuel else return "")
    let text := "SELECT " ++ distinct ++ top ++
      Text.join ", " (items.map SelectItem.text) ++ into ++ clause "FROM" relations ++ condition ++
      clause "GROUP BY" groups ++ having ++ windows ++ qualify ++ lateWindows
    return { text, items := some items }

/-- A `SELECT`, a query in parentheses or listed rows. -/
def readQueryPart : Nat → Reading Selection
  | 0 => failure
  | fuel + 1 => do
    if ← isKeyword "select" then readSelect fuel
    else if ← takeSymbol "(" then
      let query ← readQuery fuel
      symbol ")"
      return { query with text := "(" ++ query.text ++ ")" }
    else if ← takeKeyword "values" then
      let rows ← commaSeparated (do
        let _ ← takeKeyword "row"
        symbol "("
        let row ← commaSeparated (readExpr fuel 0) fuel
        symbol ")"
        return "(" ++ Text.join ", " (row.map Term.text) ++ ")") fuel
      return { text := "VALUES " ++ Text.join ", " rows, items := none }
    else if ← takeKeyword "table" then
      return { text := "TABLE " ++ dotted (← readNames fuel), items := none }
    else failure

/-- Queries joined by set operators that bind more strongly than `least`. -/
def readQueryBody : Nat → Nat → Reading Selection
  | 0, _ => failure
  | fuel + 1, least => do
    let first ← readQueryPart fuel
    readSetOperators fuel least first

/-- The set operators after a query that bind more strongly than `least`. -/
def readSetOperators : Nat → Nat → Selection → Reading Selection
  | 0, _, _ => failure
  | fuel + 1, least, left => do
    let operator := (← peek?).bind Token.keyword?
    let strength :=
      if operator = some "intersect" then 20
      else if operator = some "union" || operator = some "except" then 10
      else 0
    if strength ≤ least then return left
    else
      let word ← takeKeywordOf ["union", "except", "intersect"]
      let quantifier ← takePhrase [["all", "by", "name"], ["distinct", "by", "name"],
        ["by", "name"], ["all"], ["distinct"]]
      let right ← readQueryBody fuel strength
      readSetOperators fuel least
        { text := left.text ++ afterBlank (word.map capitals) ++ afterBlank quantifier ++ " " ++
            right.text
          items := left.items }

/-- A named query of a `WITH` clause. -/
def readNamedQuery : Nat → Reading String
  | 0 => failure
  | fuel + 1 => do
    let name ← readName
    let columns ← (do
      if ← takeSymbol "(" then
        let names ← commaSeparated readName fuel
        symbol ")"
        return " (" ++ Text.join ", " (names.map Prod.snd) ++ ")"
      else return "")
    keyword "as"
    let kept ← takePhrase [["materialized"], ["not", "materialized"]]
    symbol "("
    let query ← readQuery fuel
    symbol ")"
    return name.2 ++ columns ++ " AS" ++ afterBlank kept ++ " (" ++ query.text ++ ")"

/-- A bound on the rows of a query, in either order: a limit and an offset. -/
def readBounds : Nat → Nat → Option String → Option String → Reading String
  | 0, _, _, _ => failure
  | _, 0, limit, offset => return (limit.getD "") ++ (offset.getD "")
  | fuel + 1, rounds + 1, limit, offset => do
    let limit ← (do
      if limit.isNone && (← takeKeyword "limit") then
        if ← takeKeyword "all" then return none
        else return some (" LIMIT " ++ (← readExpr fuel 0).text)
      else return limit)
    let offset ← (do
      if offset.isNone && (← takeKeyword "offset") then
        let count ← readExpr fuel 0
        let rows ← takeKeywordOf ["row", "rows"]
        return some (" OFFSET " ++ count.text ++ afterBlank (rows.map capitals))
      else return offset)
    match limit, offset with
    | some first, none =>
      if ← takeSymbol "," then
        let count ← readExpr fuel 0
        readBounds fuel rounds (some (" LIMIT " ++ count.text))
          (some (" OFFSET" ++ String.ofList (first.toList.drop 6)))
      else readBounds fuel rounds limit offset
    | _, _ => readBounds fuel rounds limit offset

/-- A query. -/
def readQuery : Nat → Reading Selection
  | 0 => failure
  | fuel + 1 => do
    let named ← (do
      if ← takeKeyword "with" then
        let recursive ← takeKeyword "recursive"
        let list ← commaSeparated (readNamedQuery fuel) fuel
        return "WITH " ++ (if recursive then "RECURSIVE " else "") ++ Text.join ", " list ++ " "
      else return "")
    let body ← readQueryBody fuel 0
    let order ← readOrder (readExpr fuel 0) fuel
    let bounds ← readBounds fuel 2 none none
    let fetch ← readFetch
    let locks ← readLocks fuel
    return { body with text := named ++ body.text ++ clause "ORDER BY" order ++ bounds ++ fetch ++ locks }

end

end Sql

end ViewCompiler
