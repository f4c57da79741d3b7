import ViewCompiler.Text.Basic

/-!
# Keywords in statements

Keywords are found whole, in any case, in the masked form of a statement. Case is that of Unicode
folding, so the long s stands for an s.

* `Sql.Matcher`: takes the text from a place on and gives what follows the match.
* `Sql.find?`: the first place between two words where a matcher succeeds.
* `Sql.isTrailingLimit`: is the rest of a text a `LIMIT` clause and nothing more?
-/

namespace ViewCompiler

namespace Sql

/-- Takes the text from a place on and gives what follows the match. -/
abbrev Matcher := List Char → Option (List Char)

/-- Is the character a form of the small letter? -/
def isLetter (letter c : Char) : Bool :=
  Text.asciiLower c = letter || (letter = 's' && c = 'ſ')

/-- A word, in any case. -/
def word : List Char → Matcher
  | [], cs => some cs
  | _ :: _, [] => none
  | k :: ks, c :: cs => if isLetter k c then word ks cs else none

/-- At least one blank, and all that follow. -/
def blanks (cs : List Char) : Option (List Char) :=
  match cs with
  | [] => none
  | c :: rest => if Text.isBlank c then some (Text.trimStart rest) else none

/-- At least one digit, and all that follow. -/
def digits (cs : List Char) : Option (List Char) :=
  match cs with
  | [] => none
  | c :: rest => if Text.isDecimalDigit c then some (rest.dropWhile Text.isDecimalDigit) else none

/-- Does the text start with a character of a word? -/
def startsInWord (cs : List Char) : Bool :=
  match cs with
  | [] => false
  | c :: _ => Text.isWordChar c

/-- A match that ends where a word ends. -/
def whole (matcher : Matcher) : Matcher := fun cs =>
  (matcher cs).bind fun rest => if startsInWord rest then none else some rest

/-- The keyword `SELECT`. -/
def selectKeyword : Matcher := whole (word ['s', 'e', 'l', 'e', 'c', 't'])

/-- The keyword `WHERE`. -/
def whereKeyword : Matcher := whole (word ['w', 'h', 'e', 'r', 'e'])

/-- Two words with blanks between them. -/
def wordPair (first second : List Char) : Matcher := fun cs =>
  ((word first cs).bind blanks).bind (word second)

/-- The keywords that end the condition of a statement: `GROUP BY`, `ORDER BY`, `HAVING`,
`LIMIT`. -/
def boundaryKeyword : Matcher := whole fun cs =>
  wordPair ['g', 'r', 'o', 'u', 'p'] ['b', 'y'] cs <|>
    wordPair ['o', 'r', 'd', 'e', 'r'] ['b', 'y'] cs <|>
    word ['h', 'a', 'v', 'i', 'n', 'g'] cs <|>
    word ['l', 'i', 'm', 'i', 't'] cs

/-- Where a match starts and where it ends. -/
structure Span where
  start : Nat
  stop : Nat
  deriving DecidableEq, Repr

/-- The first match that starts at a place at or after `position`, where `inWord` tells whether
the character before belongs to a word. -/
def findFrom (matcher : Matcher) (position : Nat) (inWord : Bool) : List Char → Option Span
  | [] => none
  | c :: rest =>
    let here := if inWord || !Text.isWordChar c then none else matcher (c :: rest)
    match here with
    | some after => some ⟨position, position + (rest.length + 1 - after.length)⟩
    | none => findFrom matcher (position + 1) (Text.isWordChar c) rest

/-- The first match in a text. -/
def find? (matcher : Matcher) (cs : List Char) : Option Span := findFrom matcher 0 false cs

/-- The first match that starts at or after a position, which is no start of the text. -/
def findAfter? (matcher : Matcher) (cs : List Char) (position : Nat) : Option Span :=
  let inWord := match cs[position - 1]? with
    | some c => Text.isWordChar c
    | none => false
  findFrom matcher position inWord (cs.drop position)

/-- The number of matches, counted up to `max`. -/
def countUpTo (matcher : Matcher) (cs : List Char) : Nat → Nat
  | 0 => 0
  | max + 1 =>
    match find? matcher cs with
    | none => 0
    | some span => countUpTo matcher (cs.drop span.stop) max + 1

/-! ### The limit at the end -/

/-- Blanks, at most one semicolon and blanks: nothing more. -/
def isClauseEnd (cs : List Char) : Bool :=
  match Text.trimStart cs with
  | ';' :: rest => (Text.trimStart rest).isEmpty
  | rest => rest.isEmpty

/-- A comma with digits after it. -/
def commaCount (cs : List Char) : Option (List Char) :=
  match Text.trimStart cs with
  | ',' :: rest => digits (Text.trimStart rest)
  | _ => none

/-- The word `OFFSET` with digits after it. -/
def offsetCount (cs : List Char) : Option (List Char) :=
  (((blanks cs).bind (word ['o', 'f', 'f', 's', 'e', 't'])).bind blanks).bind digits

/-- Is the text a limit of one of the forms `LIMIT n`, `LIMIT n, m` and `LIMIT n OFFSET m`, and
nothing more but blanks and a semicolon? -/
def isTrailingLimit (cs : List Char) : Bool :=
  match ((word ['l', 'i', 'm', 'i', 't'] cs).bind blanks).bind digits with
  | none => false
  | some rest =>
    isClauseEnd rest || (commaCount rest).any isClauseEnd || (offsetCount rest).any isClauseEnd

/-- Does a text end with a limit, where `inWord` tells whether the character before belongs to a
word? -/
def endsWithLimit (inWord : Bool) : List Char → Bool
  | [] => false
  | c :: rest =>
    (!inWord && isTrailingLimit (c :: rest)) || endsWithLimit (Text.isWordChar c) rest

end Sql

end ViewCompiler
