import ViewCompiler.Text.Basic

/-!
# Tokens of SQL expressions

`Token.scan` cuts a statement into words, numbers, strings and symbols. Blanks and comments
separate tokens and are dropped; a comment between marks may hold others. A name may stand between
double quotes or backticks.
-/

namespace ViewCompiler

namespace Sql

/-- A token of a statement. -/
inductive Token where
  /-- A word; with its quote if it stands between two. -/
  | word (value : String) (quote : Option Char)
  /-- A number as it is written. -/
  | number (text : String)
  /-- A text between single quotes. -/
  | string (value : String)
  /-- A literal of another kind, as it is normally written. -/
  | literal (text : String)
  /-- A sign of one or more characters. -/
  | symbol (text : String)
  deriving DecidableEq, Repr, Inhabited

namespace Token

/-- May the character start a word? -/
def isWordStart (c : Char) : Bool := Text.isAlphabetic c || c = '_' || c = '#' || c = '@'

/-- May the character go on in a word? -/
def isWordPart (c : Char) : Bool :=
  Text.isAlphabetic c || Text.isAsciiDigit c || c = '@' || c = '$' || c = '#' || c = '_'

/-- Pass over a comment between marks, `depth` of which are open after the character `previous`.
The character that ends one mark may start the next one. -/
def skipComment (depth : Nat) (previous : Char) : List Char → Option (List Char)
  | [] => none
  | c :: rest =>
    if previous = '/' && c = '*' then skipComment (depth + 1) c rest
    else if previous = '*' && c = '/' then
      if depth ≤ 1 then some rest else skipComment (depth - 1) c rest
    else skipComment depth c rest

/-- Read up to a closing quote; a quote written twice stands for itself. -/
def readQuoted (quote : Char) : List Char → Option (List Char × List Char)
  | [] => none
  | [c] => if c = quote then some ([], []) else none
  | c :: d :: rest =>
    if c = quote then
      if d = quote then (readQuoted quote rest).map fun (cs, rest) => (quote :: cs, rest)
      else some ([], d :: rest)
    else (readQuoted quote (d :: rest)).map fun (cs, rest) => (c :: cs, rest)

/-- Read the digits at the start of a text. -/
def readDigits (cs : List Char) : List Char × List Char := cs.span Text.isAsciiDigit

/-- Read an exponent, if a complete one stands at the start of a text. -/
def readExponent (cs : List Char) : List Char × List Char :=
  match cs with
  | e :: rest =>
    if e = 'e' || e = 'E' then
      let (sign, rest) := match rest with
        | '+' :: rest => (['+'], rest)
        | '-' :: rest => (['-'], rest)
        | rest => ([], rest)
      match readDigits rest with
      | ([], _) => ([], cs)
      | (ds, rest) => (e :: sign ++ ds, rest)
    else ([], cs)
  | [] => ([], [])

/-- Is the character a hexadecimal digit? -/
def isHexDigit (c : Char) : Bool :=
  Text.isAsciiDigit c || ('a' ≤ c && c ≤ 'f') || ('A' ≤ c && c ≤ 'F')

/-- Read a number, or a point that starts none. -/
def readNumber (cs : List Char) : Token × List Char :=
  let (whole, rest) := readDigits cs
  match whole, rest with
  | ['0'], 'x' :: rest =>
    let (ds, rest) := rest.span isHexDigit
    (.literal (String.ofList ('X' :: '\'' :: ds ++ ['\''])), rest)
  | _, _ =>
    let (point, rest) := match rest with
      | '.' :: rest => (['.'], rest)
      | rest => ([], rest)
    let (fraction, rest) := readDigits rest
    let text := whole ++ point ++ fraction
    if text = ['.'] then (.symbol ".", rest)
    else
      let (exponent, rest) := readExponent rest
      let (long, rest) := match rest with
        | 'L' :: rest => (['L'], rest)
        | rest => ([], rest)
      (.number (String.ofList (text ++ exponent ++ long)), rest)

/-- The signs of more than one character, longer ones first. -/
def longSymbols : List (List Char) :=
  [['!', '~', '~', '*'], ['!', '~', '~'], ['!', '~', '*'], ['!', '~'], ['~', '~', '*'],
    ['~', '~'], ['~', '*'], ['<', '=', '>'], ['-', '>', '>'], ['-', '>'], ['|', '|'], ['=', '='],
    ['=', '>'], ['!', '='], ['<', '='], ['<', '>'], ['<', '<'], ['>', '='], ['>', '>'],
    [':', ':'], [':', '='], ['&', '&'], ['/', '/']]

/-- The signs of one character. -/
def shortSymbols : List Char :=
  ['(', ')', ',', ';', '*', '+', '-', '/', '%', '=', '<', '>', '!', '|', '&', '^', '~', ':', '[',
    ']', '\x7b', '\x7d', '?', '$', '\\']

/-- Read a sign. -/
def readSymbol (cs : List Char) : Option (Token × List Char) :=
  match longSymbols.findSome? fun sign =>
      (Text.dropPrefix? sign cs).map fun rest => (Token.symbol (String.ofList sign), rest) with
  | some found => some found
  | none =>
    match cs with
    | c :: rest =>
      if shortSymbols.contains c then some (.symbol (String.ofList [c]), rest) else none
    | [] => none

/-- The literals that a letter before a single quote marks, and how the letter is written. -/
def markedLiteral? (c : Char) : Option Char :=
  if c = 'n' || c = 'N' then some 'N'
  else if c = 'e' || c = 'E' then some 'E'
  else if c = 'x' || c = 'X' then some 'X'
  else if c = 'b' || c = 'B' then some 'B'
  else if c = 'r' || c = 'R' then some 'R'
  else none

/-- The letter that marks a literal and what follows the quote, if one starts with `c`. -/
def marked? (c : Char) : List Char → Option (Char × List Char)
  | '\'' :: rest => (markedLiteral? c).map fun letter => (letter, rest)
  | _ => none

/-- Cut a text into tokens. -/
def scanWithin : Nat → List Char → Option (List Token)
  | _, [] => some []
  | 0, _ => none
  | fuel + 1, c :: rest =>
    let next (token : Token) (rest : List Char) : Option (List Token) :=
      (scanWithin fuel rest).map (token :: ·)
    match c, rest with
    | '-', '-' :: rest => scanWithin fuel (rest.dropWhile (· ≠ '\n'))
    | '/', '*' :: rest => (skipComment 1 ' ' rest).bind (scanWithin fuel)
    | '\'', rest => do
      let (value, rest) ← readQuoted '\'' rest
      next (.string (String.ofList value)) rest
    | '"', rest => do
      let (value, rest) ← readQuoted '"' rest
      next (.word (String.ofList value) (some '"')) rest
    | '`', rest => do
      let (value, rest) ← readQuoted '`' rest
      next (.word (String.ofList value) (some '`')) rest
    | c, rest =>
      match marked? c rest with
      | some (letter, rest) => do
        let (value, rest) ← readQuoted '\'' rest
        next (.literal (String.ofList (letter :: '\'' :: value ++ ['\'']))) rest
      | none =>
        if Text.isBlank c then scanWithin fuel rest
        else if isWordStart c then
          let (tail, rest) := rest.span isWordPart
          next (.word (String.ofList (c :: tail)) none) rest
        else if Text.isAsciiDigit c || c = '.' then
          let (token, rest) := readNumber (c :: rest)
          next token rest
        else (readSymbol (c :: rest)).bind fun (token, rest) => next token rest

/-- The tokens of a statement. -/
def scan (sql : String) : Option (List Token) := scanWithin (sql.length + 1) sql.toList

/-- The word in small letters, if it stands without quotes. -/
def keyword? : Token → Option String
  | .word value none => some (String.ofList (value.toList.map Text.asciiLower))
  | _ => none

/-- A word as it stands; nothing for the other tokens. -/
def spelling : Token → String
  | .word value _ => value
  | _ => ""

end Token

end Sql

end ViewCompiler
