import ViewCompiler.Sql.Token

/-!
# Readers of tokens

A `Sql.Reading` takes tokens from the left; it gives nothing where they do not fit. The readers of
this module look at single tokens or take them, one of several keywords, phrases of keywords, and
lists with commas.
-/

namespace ViewCompiler

namespace Sql

/-- A reader of tokens. -/
abbrev Reading (α : Type) := StateT (List Token) Option α

/-- Capitals for the ASCII letters. -/
def capitals (text : String) : String := String.ofList (text.toList.map Text.asciiUpper)

namespace Reading

/-- The next token, left in place. -/
def peek? : Reading (Option Token) := fun tokens => some (tokens.head?, tokens)

/-- The token after the next one, left in place. -/
def peekSecond? : Reading (Option Token) := fun tokens => some (tokens.tail.head?, tokens)

/-- The next token. -/
def next : Reading Token := fun tokens =>
  match tokens with
  | [] => none
  | token :: rest => some (token, rest)

/-- Fail unless the condition holds. -/
def ensure (condition : Bool) : Reading Unit := if condition then pure () else failure

/-- Is the next token this keyword? -/
def isKeyword (keyword : String) : Reading Bool := do
  return (← peek?).any fun token => token.keyword? = some keyword

/-- Is the next token one of these keywords? -/
def isKeywordOf (keywords : List String) : Reading Bool := do
  return (← peek?).any fun token => token.keyword?.any keywords.contains

/-- Is the next token this sign? -/
def isSymbol (sign : String) : Reading Bool := do return (← peek?) == some (.symbol sign)

/-- Take the keyword if it comes next. -/
def takeKeyword (keyword : String) : Reading Bool := do
  if ← isKeyword keyword then
    let _ ← next
    return true
  else return false

/-- Take the keywords if they come next, one after another. -/
def takeKeywords (keywords : List String) : Reading Bool := fun tokens =>
  let found := (tokens.take keywords.length).map Token.keyword?
  if found = keywords.map some then some (true, tokens.drop keywords.length)
  else some (false, tokens)

/-- Take the sign if it comes next. -/
def takeSymbol (sign : String) : Reading Bool := do
  if ← isSymbol sign then
    let _ ← next
    return true
  else return false

/-- Take the keyword, which must come next. -/
def keyword (keyword : String) : Reading Unit := do ensure (← takeKeyword keyword)

/-- Take the sign, which must come next. -/
def symbol (sign : String) : Reading Unit := do ensure (← takeSymbol sign)

/-- Take one of the keywords if one comes next. -/
def takeKeywordOf (keywords : List String) : Reading (Option String) := do
  match (← peek?).bind Token.keyword? with
  | some found =>
    if keywords.contains found then
      let _ ← next
      return some found
    else return none
  | none => return none

/-- Items with commas between them. -/
def commaSeparated {α : Type} (item : Reading α) : Nat → Reading (List α)
  | 0 => failure
  | fuel + 1 => do
    let first ← item
    if ← takeSymbol "," then
      let rest ← commaSeparated item fuel
      return first :: rest
    else return [first]

/-- The first of the phrases that comes next, taken. -/
def takePhrase : List (List String) → Reading (Option String)
  | [] => return none
  | phrase :: rest => do
    if ← takeKeywords phrase then return some (capitals (Text.join " " phrase))
    else takePhrase rest

end Reading

end Sql

end ViewCompiler
