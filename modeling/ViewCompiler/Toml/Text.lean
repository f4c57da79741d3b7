import ViewCompiler.Text.Basic
import ViewCompiler.Toml.Basic

/-!
# Reading TOML

The readers take the text from the left and give what they have read with what follows.

* `Toml.readKey`: a key with its parts.
* `Toml.readValue`: a value.
* `Toml.parse?`: a whole document, line by line.
-/

namespace ViewCompiler

namespace Toml

/-! ### Blanks and comments -/

/-- The text after blanks and tabs. -/
def skipBlanks (cs : List Char) : List Char := cs.dropWhile fun c => c = ' ' || c = '\t'

/-- Is the character none that has no place in a document? -/
def isPrintable (c : Char) : Bool := c = '\t' || (32 ≤ c.toNat && c.toNat ≠ 127)

/-- The text after blanks and a comment; it stands at the end of a line. -/
def skipComment (cs : List Char) : List Char :=
  match skipBlanks cs with
  | '#' :: rest => rest.dropWhile isPrintable
  | rest => rest

/-- The text after the end of a line. -/
def endLine : List Char → Option (List Char)
  | [] => some []
  | '\n' :: rest => some rest
  | '\r' :: '\n' :: rest => some rest
  | _ => none

/-- The text after blanks, comments and ends of lines. -/
def skipLines : Nat → List Char → List Char
  | 0, cs => cs
  | fuel + 1, cs =>
    match skipComment cs with
    | '\n' :: rest => skipLines fuel rest
    | '\r' :: '\n' :: rest => skipLines fuel rest
    | rest => rest

/-! ### Texts -/

/-- The value of a hexadecimal digit. -/
def hexDigit? (c : Char) : Option Nat :=
  if Text.isAsciiDigit c then some (c.toNat - 48)
  else if 'a' ≤ c && c ≤ 'f' then some (c.toNat - 87)
  else if 'A' ≤ c && c ≤ 'F' then some (c.toNat - 55)
  else none

/-- The character with a code of `count` hexadecimal digits. -/
def readCode (count : Nat) (cs : List Char) : Option (Char × List Char) := do
  let digits ← (cs.take count).mapM hexDigit?
  let code := digits.foldl (fun value digit => 16 * value + digit) 0
  if digits.length = count && code.isValidChar then
    return (Char.ofNat code, cs.drop count)
  else none

/-- The character that a backslash and what follows it stand for. -/
def readEscape : List Char → Option (Char × List Char)
  | 'b' :: rest => some (Char.ofNat 8, rest)
  | 't' :: rest => some ('\t', rest)
  | 'n' :: rest => some ('\n', rest)
  | 'f' :: rest => some (Char.ofNat 12, rest)
  | 'r' :: rest => some ('\r', rest)
  | '"' :: rest => some ('"', rest)
  | '\\' :: rest => some ('\\', rest)
  | 'u' :: rest => readCode 4 rest
  | 'U' :: rest => readCode 8 rest
  | _ => none

/-- The text after a backslash at the end of a line and the blanks at the start of the next. -/
def joinLines (cs : List Char) : Option (List Char) :=
  let blank (c : Char) : Bool := c = ' ' || c = '\t' || c = '\n' || c = '\r'
  match skipBlanks cs with
  | '\n' :: rest => some (rest.dropWhile blank)
  | '\r' :: '\n' :: rest => some (rest.dropWhile blank)
  | _ => none

/-- The rest of a text in one line. -/
def readLine (quote : Char) : Nat → List Char → Option (List Char × List Char)
  | 0, _ => none
  | _, [] => none
  | fuel + 1, c :: rest =>
    if c = quote then some ([], rest)
    else if c = '\\' && quote = '"' then do
      let (c, rest) ← readEscape rest
      let (text, rest) ← readLine quote fuel rest
      return (c :: text, rest)
    else if isPrintable c then do
      let (text, rest) ← readLine quote fuel rest
      return (c :: text, rest)
    else none

/-- The rest of a text over several lines; up to two quotes may stand right before its end. -/
def readLines (quote : Char) : Nat → List Char → Option (List Char × List Char)
  | 0, _ => none
  | _, [] => none
  | fuel + 1, c :: rest =>
    let quotes := ((c :: rest).takeWhile (· = quote)).length
    if 3 ≤ quotes then
      if 5 < quotes then none
      else some (List.replicate (quotes - 3) quote, (c :: rest).drop quotes)
    else if c = '\\' && quote = '"' then
      match joinLines rest with
      | some rest => readLines quote fuel rest
      | none => do
        let (c, rest) ← readEscape rest
        let (text, rest) ← readLines quote fuel rest
        return (c :: text, rest)
    else match c, rest with
      | '\r', '\n' :: rest => do
        let (text, rest) ← readLines quote fuel rest
        return ('\n' :: text, rest)
      | c, rest =>
        if isPrintable c || c = '\n' then do
          let (text, rest) ← readLines quote fuel rest
          return (c :: text, rest)
        else none

/-- The text without a line break at its start. -/
def dropBreak : List Char → List Char
  | '\n' :: rest => rest
  | '\r' :: '\n' :: rest => rest
  | cs => cs

/-- A text between quotes, or between three of them. -/
def readText (cs : List Char) : Option (String × List Char) := do
  let (text, rest) ← match cs with
    | '"' :: '"' :: '"' :: rest => readLines '"' (rest.length + 1) (dropBreak rest)
    | '\'' :: '\'' :: '\'' :: rest => readLines '\'' (rest.length + 1) (dropBreak rest)
    | '"' :: rest => readLine '"' (rest.length + 1) rest
    | '\'' :: rest => readLine '\'' (rest.length + 1) rest
    | _ => none
  return (String.ofList text, rest)

/-! ### Keys -/

/-- May the character stand in a key without quotes? -/
def isKeyChar (c : Char) : Bool :=
  Text.isAsciiLetter c || Text.isAsciiDigit c || c = '_' || c = '-'

/-- One part of a key. -/
def readPart (cs : List Char) : Option (String × List Char) :=
  match cs with
  | '"' :: rest => do
    let (text, rest) ← readLine '"' (rest.length + 1) rest
    return (String.ofList text, rest)
  | '\'' :: rest => do
    let (text, rest) ← readLine '\'' (rest.length + 1) rest
    return (String.ofList text, rest)
  | cs =>
    let part := cs.takeWhile isKeyChar
    if part.isEmpty then none else some (String.ofList part, cs.drop part.length)

/-- A key with its parts, blanks around the points included. -/
def readKey : Nat → List Char → Option (List String × List Char)
  | 0, _ => none
  | fuel + 1, cs => do
    let (part, rest) ← readPart (skipBlanks cs)
    match skipBlanks rest with
    | '.' :: rest => do
      let (parts, rest) ← readKey fuel rest
      return (part :: parts, rest)
    | rest => return ([part], rest)

/-! ### Numbers and moments -/

/-- May the character stand in a number, a moment or a truth value? -/
def isScalarChar (c : Char) : Bool :=
  isKeyChar c || c = '+' || c = '.' || c = ':'

/-- The digits without underscores, if these stand only between digits. -/
def plainDigits? (isDigit : Char → Bool) : List Char → Option (List Char)
  | [] => none
  | [c] => if isDigit c then some [c] else none
  | c :: '_' :: rest => if isDigit c then (plainDigits? isDigit rest).map (c :: ·) else none
  | c :: rest => if isDigit c then (plainDigits? isDigit rest).map (c :: ·) else none

/-- The value of digits in a base. -/
def valueIn (base : Nat) (digits : List Char) : Nat :=
  digits.foldl (fun value c => base * value + (hexDigit? c).getD 0) 0

/-- A natural number in a base. -/
def naturalIn? (base : Nat) (cs : List Char) : Option Nat :=
  (plainDigits? (fun c => (hexDigit? c).any (· < base)) cs).map (valueIn base)

/-- A natural number in decimal digits, without a zero in front. -/
def decimal? (cs : List Char) : Option Nat :=
  match cs with
  | '0' :: _ :: _ => none
  | cs => naturalIn? 10 cs

/-- An integer. -/
def integer? : List Char → Option Int
  | '0' :: 'x' :: rest => (naturalIn? 16 rest).map Int.ofNat
  | '0' :: 'o' :: rest => (naturalIn? 8 rest).map Int.ofNat
  | '0' :: 'b' :: rest => (naturalIn? 2 rest).map Int.ofNat
  | '+' :: rest => (decimal? rest).map Int.ofNat
  | '-' :: rest => (decimal? rest).map fun n => -Int.ofNat n
  | cs => (decimal? cs).map Int.ofNat

/-- The text without a sign at its start. -/
def dropSign : List Char → List Char
  | '+' :: rest => rest
  | '-' :: rest => rest
  | cs => cs

/-- Is the text an exponent, sign and digits? -/
def isExponent (cs : List Char) : Bool := (naturalIn? 10 (dropSign cs)).isSome

/-- Is the text a number with a fraction or an exponent, or one that is none? -/
def isFloat (cs : List Char) : Bool :=
  let cs := dropSign cs
  let whole := cs.takeWhile fun c => Text.isAsciiDigit c || c = '_'
  let known := (decimal? whole).isSome
  match cs.drop whole.length with
  | '.' :: rest =>
    let fraction := rest.takeWhile fun c => Text.isAsciiDigit c || c = '_'
    known && (naturalIn? 10 fraction).isSome &&
      match rest.drop fraction.length with
      | [] => true
      | c :: rest => (c = 'e' || c = 'E') && isExponent rest
  | c :: rest =>
    if whole.isEmpty then c :: rest = ['i', 'n', 'f'] || c :: rest = ['n', 'a', 'n']
    else known && (c = 'e' || c = 'E') && isExponent rest
  | [] => false

/-- Read exactly `count` digits whose value lies between two bounds. -/
def dropDigits (count low high : Nat) (cs : List Char) : Option (List Char) :=
  let digits := cs.take count
  let value := valueIn 10 digits
  if digits.length = count && digits.all Text.isAsciiDigit && low ≤ value && value ≤ high then
    some (cs.drop count)
  else none

/-- The text after a date. -/
def dropDate (cs : List Char) : Option (List Char) := do
  let cs ← dropDigits 4 0 9999 cs
  let cs ← Text.dropPrefix? ['-'] cs
  let cs ← dropDigits 2 1 12 cs
  let cs ← Text.dropPrefix? ['-'] cs
  dropDigits 2 1 31 cs

/-- The text after a time. -/
def dropTime (cs : List Char) : Option (List Char) := do
  let cs ← dropDigits 2 0 23 cs
  let cs ← Text.dropPrefix? [':'] cs
  let cs ← dropDigits 2 0 59 cs
  let cs ← Text.dropPrefix? [':'] cs
  let cs ← dropDigits 2 0 60 cs
  match cs with
  | '.' :: rest =>
    let fraction := rest.takeWhile Text.isAsciiDigit
    if fraction.isEmpty then none else some (rest.drop fraction.length)
  | cs => some cs

/-- Is the text a distance from universal time, or nothing? -/
def isOffset : List Char → Bool
  | [] => true
  | ['Z'] => true
  | ['z'] => true
  | sign :: rest =>
    (sign = '+' || sign = '-') &&
      (do
        let cs ← dropDigits 2 0 23 rest
        let cs ← Text.dropPrefix? [':'] cs
        dropDigits 2 0 59 cs) == some []

/-- Is the text a time, a date, or both? -/
def isMoment (cs : List Char) : Bool :=
  dropTime cs == some [] ||
    match dropDate cs with
    | none => false
    | some [] => true
    | some (c :: rest) =>
      (c = 'T' || c = 't' || c = ' ') && (dropTime rest).any isOffset

/-- The value of a text without blanks and signs of its own. -/
def scalar? (cs : List Char) : Option Toml :=
  if cs = ['t', 'r', 'u', 'e'] then some (.boolean true)
  else if cs = ['f', 'a', 'l', 's', 'e'] then some (.boolean false)
  else match integer? cs with
    | some value => some (.integer value)
    | none =>
      if isFloat cs then some .float
      else if isMoment cs then some .moment
      else none

/-- A number, a moment or a truth value. A date and a time may have a blank between them. -/
def readScalar (cs : List Char) : Option (Toml × List Char) :=
  let first := cs.takeWhile isScalarChar
  let rest := cs.drop first.length
  let second := match rest with
    | ' ' :: rest => rest.takeWhile isScalarChar
    | _ => []
  let both := first ++ ' ' :: second
  if dropDate first == some [] && !second.isEmpty && isMoment both then
    some (.moment, cs.drop both.length)
  else (scalar? first).map fun value => (value, rest)

/-! ### Values -/

mutual

/-- A value. -/
def readValue : Nat → List Char → Option (Toml × List Char)
  | 0, _ => none
  | fuel + 1, cs =>
    match cs with
    | '"' :: _ => (readText cs).map fun (text, rest) => (.string text, rest)
    | '\'' :: _ => (readText cs).map fun (text, rest) => (.string text, rest)
    | '[' :: rest => (readItems fuel rest).map fun (items, rest) => (.array items, rest)
    | '\x7b' :: rest =>
      match skipBlanks rest with
      | '\x7d' :: rest => some (.table .braced [], rest)
      | rest => (readEntries fuel [] rest).map fun (entries, rest) => (.table .braced entries, rest)
    | cs => readScalar cs

/-- The items of an array up to its closing bracket. -/
def readItems : Nat → List Char → Option (List Toml × List Char)
  | 0, _ => none
  | fuel + 1, cs =>
    match skipLines (cs.length + 1) cs with
    | ']' :: rest => some ([], rest)
    | cs => do
      let (item, rest) ← readValue fuel cs
      match skipLines (rest.length + 1) rest with
      | ']' :: rest => return ([item], rest)
      | ',' :: rest => do
        let (items, rest) ← readItems fuel rest
        return (item :: items, rest)
      | _ => none

/-- The entries of a table between braces up to the closing one. -/
def readEntries : Nat → Entries → List Char → Option (Entries × List Char)
  | 0, _, _ => none
  | fuel + 1, entries, cs => do
    let (key, rest) ← readKey (cs.length + 1) cs
    let rest ← Text.dropPrefix? ['='] rest
    let (value, rest) ← readValue fuel (skipBlanks rest)
    let entries ← assign value key entries
    match skipBlanks rest with
    | '\x7d' :: rest => return (entries, rest)
    | ',' :: rest => readEntries fuel entries rest
    | _ => none

end

/-! ### Documents -/

/-- A header: its key, and whether it may be repeated. -/
def readHeader (cs : List Char) : Option (List String × Bool × List Char) := do
  match cs with
  | '[' :: rest => do
    let (key, rest) ← readKey (rest.length + 1) rest
    let rest ← Text.dropPrefix? [']', ']'] rest
    return (key, true, rest)
  | rest => do
    let (key, rest) ← readKey (rest.length + 1) rest
    let rest ← Text.dropPrefix? [']'] rest
    return (key, false, rest)

/-- The lines of a document; `path` is the last header. -/
def readDocument : Nat → List String → Entries → List Char → Option Entries
  | 0, _, _, _ => none
  | fuel + 1, path, entries, cs =>
    match skipLines (cs.length + 1) cs with
    | [] => some entries
    | '[' :: rest => do
      let (key, repeated, rest) ← readHeader rest
      let entries ← if repeated then openItem key entries else openTable key entries
      let rest ← endLine (skipComment rest)
      readDocument fuel key entries rest
    | cs => do
      let (key, rest) ← readKey (cs.length + 1) cs
      let rest ← Text.dropPrefix? ['='] rest
      let (value, rest) ← readValue (rest.length + 1) (skipBlanks rest)
      let entries ← within (assign value key) path entries
      let rest ← endLine (skipComment rest)
      readDocument fuel path entries rest

/-- The text without a byte order mark at its start. -/
def dropMark : List Char → List Char
  | '\ufeff' :: rest => rest
  | cs => cs

/-- The table of a whole document. -/
def parse? (text : String) : Option Entries :=
  readDocument (text.length + 1) [] [] (dropMark text.toList)

end Toml

end ViewCompiler
