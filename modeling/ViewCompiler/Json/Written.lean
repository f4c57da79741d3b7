import ViewCompiler.Json.Basic
import ViewCompiler.Text.Basic
import ViewCompiler.Decimal.Shortest

/-!
# JSON as written

A text is read in two steps. `Json.Written.parse?` reads it as a tree that still has repeated
members and that tolerates, in single tokens, what stands for no value: a string with half of a
surrogate pair, a number beyond the range of the doubles. Whether such a token is an error
depends on whether somebody keeps it.

* `Json.Written.value?` takes the whole tree as a value: no token without a value, at most a given
  number of nested containers, and the last value of a repeated member.
* `Json.parse?` is the strict reader of whole texts made of both.
-/

namespace ViewCompiler

namespace Json

/-- A JSON text as a tree of its tokens. -/
inductive Written where
  | null
  | bool (value : Bool)
  /-- A number; no value if it is beyond the range of the doubles. -/
  | number (value : Option Number)
  /-- A string; no value if an escape names half of a surrogate pair. -/
  | string (value : Option String)
  | array (items : List Written)
  /-- The members in the order of the text, repeated ones included. -/
  | object (members : List (Option String × Written))
  deriving Inhabited

namespace Written

/-- Is the character a blank between tokens? -/
def isBlank (c : Char) : Bool := c = ' ' || c = '\n' || c = '\t' || c = '\r'

/-- The text from its next token on. -/
def skipBlanks (cs : List Char) : List Char := cs.dropWhile isBlank

/-! ### Numbers -/

/-- The largest significand that is kept exactly. -/
def maxSignificand : Nat := Nat.pow 2 64 - 1

/-- The value of an ASCII digit. -/
def digitValue (c : Char) : Nat := c.toNat - 48

/-- Take up the digits before the point: as many as fit, and how many were left out. -/
def takeDigits (significand dropped : Nat) : List Char → Nat × Nat
  | [] => (significand, dropped)
  | c :: rest =>
    let next := significand * 10 + digitValue c
    if dropped = 0 && next ≤ maxSignificand then takeDigits next 0 rest
    else takeDigits significand (dropped + 1) rest

/-- Take up the digits after the point until one does not fit; the count of those taken. -/
def takeFraction (significand taken : Nat) : List Char → Nat × Nat
  | [] => (significand, taken)
  | c :: rest =>
    let next := significand * 10 + digitValue c
    if next ≤ maxSignificand then takeFraction next (taken + 1) rest else (significand, taken)

/-- The value of a run of digits. -/
def digitsValue (ds : List Char) : Nat := ds.foldl (fun n c => n * 10 + digitValue c) 0

/-- The number written with these digits: an integer if there is neither fraction nor exponent and
it fits, and else a double. -/
def numberOf (negative : Bool) (whole : List Char) (fraction : List Char) (exponent : Option Int) :
    Option Number :=
  let (significand, dropped) := takeDigits 0 0 whole
  let isInteger := fraction.isEmpty && exponent.isNone && dropped = 0
  if isInteger && !negative then some (.int significand)
  else if isInteger && significand ≠ 0 && significand ≤ Nat.pow 2 63 then some (.int (-significand))
  else
    let (significand, taken) := takeFraction significand 0 fraction
    (Binary64.scaled? significand ((dropped : Int) - taken + exponent.getD 0)).map
      fun x => .float (x.withSign negative)

/-- The digits at the start of a text, and the rest. -/
def spanDigits (cs : List Char) : List Char × List Char := cs.span Text.isAsciiDigit

/-- Read the digits before the point: a lone zero, or digits that do not start with one. -/
def readWhole (cs : List Char) : Option (List Char × List Char) :=
  match spanDigits cs with
  | ([], _) => none
  | ('0' :: _ :: _, _) => none
  | (ds, rest) => some (ds, rest)

/-- Read a point with digits after it, if there is a point. -/
def readFraction : List Char → Option (List Char × List Char)
  | '.' :: cs => match spanDigits cs with
    | ([], _) => none
    | (ds, rest) => some (ds, rest)
  | cs => some ([], cs)

/-- Read the sign and the digits of an exponent. -/
def readPower (cs : List Char) : Option (Int × List Char) :=
  let (negative, cs) := match cs with
    | '-' :: cs => (true, cs)
    | '+' :: cs => (false, cs)
    | cs => (false, cs)
  match spanDigits cs with
  | ([], _) => none
  | (ds, rest) =>
    let n : Int := digitsValue ds
    some (if negative then -n else n, rest)

/-- Read an exponent, if there is one. -/
def readExponent : List Char → Option (Option Int × List Char)
  | 'e' :: cs => (readPower cs).map fun r => (some r.1, r.2)
  | 'E' :: cs => (readPower cs).map fun r => (some r.1, r.2)
  | cs => some (none, cs)

/-- Read a number whose sign has been read. -/
def readNumber (negative : Bool) (cs : List Char) : Option (Written × List Char) := do
  let (whole, cs) ← readWhole cs
  let (fraction, cs) ← readFraction cs
  let (exponent, cs) ← readExponent cs
  return (.number (numberOf negative whole fraction exponent), cs)

/-! ### Strings -/

/-- The value of a hexadecimal digit. -/
def hexValue? (c : Char) : Option Nat :=
  if '0' ≤ c && c ≤ '9' then some (c.toNat - 48)
  else if 'a' ≤ c && c ≤ 'f' then some (c.toNat - 87)
  else if 'A' ≤ c && c ≤ 'F' then some (c.toNat - 55)
  else none

/-- The unit named by four hexadecimal digits. -/
def hexUnit? (a b c d : Char) : Option Nat := do
  let a ← hexValue? a
  let b ← hexValue? b
  let c ← hexValue? c
  let d ← hexValue? d
  return ((a * 16 + b) * 16 + c) * 16 + d

/-- A part of a string: a character, or a unit of sixteen bits named by an escape. -/
inductive Piece where
  | char (c : Char)
  | unit (n : Nat)
  deriving DecidableEq

/-- The character named by an escape of one letter. -/
def simpleEscape? (c : Char) : Option Char :=
  if c = '"' || c = '\\' || c = '/' then some c
  else if c = 'n' then some '\n'
  else if c = 't' then some '\t'
  else if c = 'r' then some '\r'
  else if c = 'b' then some (Char.ofNat 8)
  else if c = 'f' then some (Char.ofNat 12)
  else none

/-- Read the pieces of a string up to its closing quote. -/
def readPieces : List Char → Option (List Piece × List Char)
  | [] => none
  | '"' :: rest => some ([], rest)
  | '\\' :: 'u' :: a :: b :: c :: d :: rest => do
    let n ← hexUnit? a b c d
    let (pieces, rest) ← readPieces rest
    return (.unit n :: pieces, rest)
  | '\\' :: c :: rest => do
    let c ← simpleEscape? c
    let (pieces, rest) ← readPieces rest
    return (.char c :: pieces, rest)
  | c :: rest =>
    if c.toNat < 32 || c = '\\' then none
    else (readPieces rest).map fun (pieces, rest) => (.char c :: pieces, rest)

/-- The text of the pieces: a high unit needs a low one right after it, and a low unit a high one
right before it. -/
def pieceText? : List Piece → Option (List Char)
  | [] => some []
  | .char c :: rest => (pieceText? rest).map (c :: ·)
  | .unit n :: rest =>
    if 0xD800 ≤ n && n < 0xDC00 then
      match rest with
      | .unit low :: rest =>
        if 0xDC00 ≤ low && low < 0xE000 then
          (pieceText? rest).map
            (Char.ofNat (0x10000 + (n - 0xD800) * 0x400 + (low - 0xDC00)) :: ·)
        else none
      | _ => none
    else if 0xDC00 ≤ n && n < 0xE000 then none
    else (pieceText? rest).map (Char.ofNat n :: ·)

/-- Read a string whose opening quote has been read. -/
def readString (cs : List Char) : Option (Option String × List Char) :=
  (readPieces cs).map fun (pieces, rest) => ((pieceText? pieces).map String.ofList, rest)

/-! ### Values -/

mutual

/-- Read a value at the start of a text. -/
def readValue : Nat → List Char → Option (Written × List Char)
  | 0, _ => none
  | fuel + 1, cs =>
    match skipBlanks cs with
    | 'n' :: 'u' :: 'l' :: 'l' :: rest => some (.null, rest)
    | 't' :: 'r' :: 'u' :: 'e' :: rest => some (.bool true, rest)
    | 'f' :: 'a' :: 'l' :: 's' :: 'e' :: rest => some (.bool false, rest)
    | '"' :: rest => (readString rest).map fun (s, rest) => (.string s, rest)
    | '-' :: rest => readNumber true rest
    | '[' :: rest =>
      match skipBlanks rest with
      | ']' :: rest => some (.array [], rest)
      | rest => (readItems fuel rest).map fun (items, rest) => (.array items, rest)
    | '\x7b' :: rest =>
      match skipBlanks rest with
      | '\x7d' :: rest => some (.object [], rest)
      | rest => (readMembers fuel rest).map fun (members, rest) => (.object members, rest)
    | rest => readNumber false rest

/-- Read the items of an array that is not empty, up to its closing bracket. -/
def readItems : Nat → List Char → Option (List Written × List Char)
  | 0, _ => none
  | fuel + 1, cs => do
    let (item, rest) ← readValue fuel cs
    match skipBlanks rest with
    | ']' :: rest => return ([item], rest)
    | ',' :: rest =>
      let (items, rest) ← readItems fuel rest
      return (item :: items, rest)
    | _ => none

/-- Read the members of an object that is not empty, up to its closing brace. -/
def readMembers : Nat → List Char → Option (List (Option String × Written) × List Char)
  | 0, _ => none
  | fuel + 1, cs =>
    match skipBlanks cs with
    | '"' :: rest => do
      let (key, rest) ← readString rest
      match skipBlanks rest with
      | ':' :: rest =>
        let (value, rest) ← readValue fuel rest
        match skipBlanks rest with
        | '\x7d' :: rest => return ([(key, value)], rest)
        | ',' :: rest =>
          let (members, rest) ← readMembers fuel rest
          return ((key, value) :: members, rest)
        | _ => none
      | _ => none
    | _ => none

end

/-- Read a text that holds one value and blanks around it. -/
def parse? (text : String) : Option Written := do
  let cs := text.toList
  let (value, rest) ← readValue (cs.length + 1) cs
  if (skipBlanks rest).isEmpty then return value else none

/-! ### Taking a tree as a value -/

mutual

/-- The tree as a value with at most `depth` nested containers. -/
def value? (depth : Nat) : Written → Option Json
  | .null => some .null
  | .bool b => some (.bool b)
  | .number n => n.map .number
  | .string s => s.map .string
  | .array items =>
    if depth = 0 then none else (itemValues? (depth - 1) items).map .array
  | .object members =>
    if depth = 0 then none else (memberValues? (depth - 1) members).map .ofMembers

/-- The items as values. -/
def itemValues? (depth : Nat) : List Written → Option (List Json)
  | [] => some []
  | item :: rest => do
    let item ← value? depth item
    let rest ← itemValues? depth rest
    return item :: rest

/-- The members as values. -/
def memberValues? (depth : Nat) : List (Option String × Written) → Option (List (String × Json))
  | [] => some []
  | (key, value) :: rest => do
    let key ← key
    let value ← value? depth value
    let rest ← memberValues? depth rest
    return (key, value) :: rest

end

/-- The nested containers that a text may have. -/
def maxDepth : Nat := 127

end Written

/-- The value that a text holds. -/
def parse? (text : String) : Option Json :=
  (Written.parse? text).bind (Written.value? Written.maxDepth)

end Json

end ViewCompiler
