import ViewCompiler.Sql.Query

/-!
# Statements

`Sql.parse?` reads a text of statements with semicolons between them. Queries are read in full;
other statements are told by their first words, and as they select nothing only their outline is
read.
-/

namespace ViewCompiler

namespace Sql

open Reading

/-- The words that statements other than queries start with, where nothing need follow. -/
def shortStatements : List String :=
  ["begin", "end", "commit", "rollback", "show", "flush", "close", "discard", "deallocate"]

/-- The words that statements other than queries start with, where more must follow. -/
def longStatements : List String :=
  ["kill", "truncate", "attach", "detach", "msck", "cache", "declare", "fetch", "replace",
    "uncache", "call", "copy", "set", "use", "grant", "revoke", "start", "savepoint", "release",
    "assert", "prepare", "execute", "merge", "pragma", "unload", "install", "load", "optimize",
    "comment", "listen", "notify", "unlisten"]

/-- The words that follow `CREATE`, `DROP` or `ALTER`. -/
def objectKinds : List String :=
  ["or", "local", "global", "transient", "temporary", "temp", "volatile", "persistent", "table",
    "materialized", "view", "external", "function", "trigger", "index", "unique",
    "virtual", "schema", "database", "role", "sequence", "type", "procedure", "extension",
    "policy", "secret", "stage"]

/-- Pass over the rest of a statement whose parentheses must match. -/
def skipStatement (depth : Nat) : List Token → Option (List Token)
  | [] => if depth = 0 then some [] else none
  | .symbol "(" :: rest => skipStatement (depth + 1) rest
  | .symbol ")" :: rest => if depth = 0 then none else skipStatement (depth - 1) rest
  | .symbol ";" :: rest => if depth = 0 then some (.symbol ";" :: rest) else skipStatement depth rest
  | _ :: rest => skipStatement depth rest

/-- Pass over the rest of a statement. -/
def readRest : Reading Unit := fun tokens => (skipStatement 0 tokens).map fun rest => ((), rest)

/-- Pass over the further clauses of a statement that changes rows. -/
def readClauses : Reading Unit := do
  if (← takeKeywordOf ["on", "returning", "from", "using", "order", "limit"]).isSome then
    let _ ← next
    readRest

/-- A change of rows after named queries; it selects nothing. -/
def readNamedChange (fuel : Nat) : Reading (Option Selection) := do
  keyword "with"
  let _ ← takeKeyword "recursive"
  let _ ← commaSeparated (readNamedQuery fuel) fuel
  ensure (← takeKeywordOf ["insert", "update"]).isSome
  let _ ← next
  readRest
  return none

/-- A statement: a query, or another one, which is told by its first word and selects nothing. -/
def readStatement : Nat → Reading (Option Selection)
  | 0 => failure
  | fuel + 1 => do
    if (← isKeywordOf ["select", "with", "values"]) || (← isSymbol "(") then
      (some <$> readQuery fuel) <|> readNamedChange fuel
    else
      match (← next).keyword? with
      | none => failure
      | some word =>
        if word = "explain" || word = "desc" || word = "describe" || word = "analyze" then
          let _ ← takeKeyword "analyze"
          let _ ← takeKeyword "verbose"
          let _ ← readStatement fuel <|> (do
            let _ ← readNames fuel
            return none)
          return none
        else if word = "delete" then
          let _ ← takeKeyword "from"
          let _ ← commaSeparated (readJoined fuel) fuel
          let _ ← readTermClause fuel "where"
          readClauses
          return none
        else if word = "update" then
          let _ ← readJoined fuel
          keyword "set"
          let _ ← commaSeparated (do
            let _ ← readNames fuel
            symbol "="
            readExpr fuel 0) fuel
          let _ ← readTermClause fuel "where"
          readClauses
          return none
        else if word = "insert" then
          let _ ← takeKeyword "into"
          let _ ← readNames fuel
          let _ ← optional (do
            symbol "("
            let names ← commaSeparated readName fuel
            symbol ")"
            return names)
          if ← takeKeywords ["default", "values"] then pure ()
          else let _ ← readQuery fuel
          readClauses
          return none
        else if shortStatements.contains word then
          readRest
          return none
        else if longStatements.contains word then
          let _ ← next
          readRest
          return none
        else if word = "create" || word = "drop" || word = "alter" then
          ensure (← takeKeywordOf objectKinds).isSome
          let _ ← next
          readRest
          return none
        else failure

/-- Statements with semicolons between them; the word `END` after a statement ends the text. -/
def readStatements : Nat → Reading (List (Option Selection))
  | 0 => failure
  | fuel + 1 => do
    if ← takeSymbol ";" then readStatements fuel
    else if (← peek?).isNone then return []
    else
      let statement ← readStatement fuel
      if (← peek?).isNone || (← isKeyword "end") then return [statement]
      else
        symbol ";"
        return statement :: (← readStatements fuel)

/-- The statements of a text, each with what it selects if it is a query. -/
def parse? (sql : String) : Option (List (Option Selection)) := do
  let tokens ← Token.scan sql
  let fuel := 16 * tokens.length + 64
  let (statements, _) ← (readStatements fuel).run tokens
  return statements

end Sql

end ViewCompiler
