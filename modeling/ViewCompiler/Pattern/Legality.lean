import ViewCompiler.Pattern.Property
import ViewCompiler.Text.Basic

/-!
# Legality of search patterns

`Pattern.isLegal` decides whether a text is a regular expression of a dialect without look-around
and back references, in which

* a repetition needs an operand, and a brace outside a class always starts a counted repetition;
* the names of groups are distinct;
* letters and digits may be escaped only where the escape has a meaning;
* classes nest, and combine with `&&`, `--` and `~~`;
* the mode letters are `i`, `m`, `s`, `U`, `u`, `R` and `x`; without `u` nothing may match a part
  of a character;
* the machine for the pattern, with its counted repetitions written out, stays below a fixed size.

The readers take the text from the left and return its rest; they return nothing when the text is
not legal.
-/

namespace ViewCompiler

namespace Pattern

/-- The modes that change what is legal. -/
structure Modes where
  /-- Blanks and comments are passed over. -/
  spaced : Bool := false
  /-- Classes are sets of characters rather than of bytes. -/
  unicode : Bool := true
  deriving DecidableEq, Repr, Inhabited

/-- Pass over the rest of a comment. -/
def skipComment : List Char → List Char
  | [] => []
  | c :: rest => if c = '\n' then rest else skipComment rest

/-- Pass over blanks and comments. -/
def skipSpaced : Nat → List Char → List Char
  | 0, cs => cs
  | fuel + 1, cs =>
    match cs.dropWhile Text.isBlank with
    | '#' :: rest => skipSpaced fuel (skipComment rest)
    | cs => cs

/-- Pass over what the modes ignore. -/
def Modes.skip (modes : Modes) (cs : List Char) : List Char :=
  if modes.spaced then skipSpaced (cs.length + 1) cs else cs

/-! ### Escapes -/

/-- What an escape or a single character stands for. -/
inductive Atom where
  /-- A character; `byte` if it is written as a code of two digits. -/
  | literal (c : Char) (byte : Bool)
  /-- A set of characters named by a letter. -/
  | letterClass (letter : Char)
  /-- A set of characters named by a property. -/
  | property
  /-- A place between characters. -/
  | assertion
  deriving DecidableEq, Repr

/-- Has the character a meaning of its own in a pattern? -/
def isMeta (c : Char) : Bool :=
  ['\\', '.', '+', '*', '?', '(', ')', '|', '[', ']', '\x7b', '\x7d', '^', '$', '#', '&', '-',
    '~'].contains c

/-- May the character be escaped to stand for itself? -/
def isEscapable (c : Char) : Bool :=
  isMeta c ||
    (c.toNat < 128 && !Text.isAsciiLetter c && !Text.isAsciiDigit c && c ≠ '<' && c ≠ '>')

/-- The value of a hexadecimal digit. -/
def hexDigit? (c : Char) : Option Nat :=
  if '0' ≤ c && c ≤ '9' then some (c.toNat - 48)
  else if 'a' ≤ c && c ≤ 'f' then some (c.toNat - 87)
  else if 'A' ≤ c && c ≤ 'F' then some (c.toNat - 55)
  else none

/-- The character with a code. -/
def charOfCode? (n : Nat) : Option Char :=
  if n < 0xD800 || (0xE000 ≤ n && n < 0x110000) then some (Char.ofNat n) else none

/-- Read a fixed number of hexadecimal digits. -/
def readHex (modes : Modes) (value : Nat) : Nat → List Char → Option (Nat × List Char)
  | 0, cs => some (value, cs)
  | count + 1, cs =>
    match modes.skip cs with
    | c :: rest => (hexDigit? c).bind fun d => readHex modes (value * 16 + d) count rest
    | [] => none

/-- Read hexadecimal digits up to a closing brace. -/
def readHexBraced (modes : Modes) (value digits : Nat) : Nat → List Char → Option (Nat × List Char)
  | 0, _ => none
  | fuel + 1, cs =>
    match modes.skip cs with
    | '\x7d' :: rest => if digits = 0 then none else some (value, rest)
    | c :: rest =>
      (hexDigit? c).bind fun d => readHexBraced modes (value * 16 + d) (digits + 1) fuel rest
    | [] => none

/-- Read the code of a character after the letter that starts it. -/
def readCode (modes : Modes) (letter : Char) (cs : List Char) : Option (Atom × List Char) :=
  match modes.skip cs with
  | '\x7b' :: rest => do
    let (code, rest) ← readHexBraced modes 0 0 (rest.length + 1) rest
    let c ← charOfCode? code
    return (.literal c false, rest)
  | cs => do
    let (code, rest) ← readHex modes 0 (if letter = 'x' then 2 else if letter = 'u' then 4 else 8) cs
    let c ← charOfCode? code
    return (.literal c (letter = 'x'), rest)

/-- The parts of a property before and after a mark. -/
def splitAt (mark : List Char) : List Char → Option (List Char × List Char)
  | [] => none
  | c :: rest =>
    match Text.dropPrefix? mark (c :: rest) with
    | some value => some ([], value)
    | none => (splitAt mark rest).map fun (name, value) => (c :: name, value)

/-- Is the text between the braces of a property legal? -/
def isProperty (cs : List Char) : Bool :=
  match splitAt ['!', '='] cs with
  | some (name, value) => isPropertyValue name value
  | none =>
    match splitAt [':'] cs with
    | some (name, value) => isPropertyValue name value
    | none =>
      match splitAt ['='] cs with
      | some (name, value) => isPropertyValue name value
      | none => isPropertyName cs

/-- Read the characters up to a closing brace. -/
def readBraced (modes : Modes) : Nat → List Char → Option (List Char × List Char)
  | 0, _ => none
  | fuel + 1, cs =>
    match modes.skip cs with
    | '\x7d' :: rest => some ([], rest)
    | c :: rest => (readBraced modes fuel rest).map fun (name, rest) => (c :: name, rest)
    | [] => none

/-- Read a property after the letter that starts it. -/
def readProperty (modes : Modes) (cs : List Char) : Option (Atom × List Char) :=
  if !modes.unicode then none
  else match modes.skip cs with
    | '\x7b' :: rest => do
      let (name, rest) ← readBraced modes (rest.length + 1) rest
      if isProperty name then return (.property, rest) else none
    | c :: rest => if isCategoryLetter c then some (.property, rest) else none
    | [] => none

/-- Read the name of a special word boundary up to its closing brace. -/
def readBoundaryName (modes : Modes) : Nat → List Char → Option (List Char × List Char)
  | 0, _ => none
  | fuel + 1, cs =>
    match modes.skip cs with
    | '\x7d' :: rest => some ([], rest)
    | c :: rest =>
      if Text.isAsciiLetter c || c = '-' then
        (readBoundaryName modes fuel rest).map fun (name, rest) => (c :: name, rest)
      else none
    | [] => none

/-- Read what may follow a word boundary: the name of a special one between braces. -/
def readBoundary (modes : Modes) (cs : List Char) : Option (List Char) :=
  match cs with
  | '\x7b' :: rest =>
    match modes.skip rest with
    | [] => none
    | c :: _ =>
      if Text.isAsciiLetter c || c = '-' then do
        let (name, rest) ← readBoundaryName modes (rest.length + 1) rest
        if ["start", "end", "start-half", "end-half"].contains (String.ofList name) then
          return rest
        else none
      else some cs
  | _ => some cs

/-- Read an escape after its backslash. -/
def readEscape (modes : Modes) : List Char → Option (Atom × List Char)
  | [] => none
  | c :: rest =>
    if c = 'x' || c = 'u' || c = 'U' then readCode modes c rest
    else if c = 'p' || c = 'P' then readProperty modes rest
    else if ['d', 's', 'w', 'D', 'S', 'W'].contains c then some (.letterClass c, rest)
    else if isEscapable c then some (.literal c false, rest)
    else if ['a', 'f', 't', 'n', 'r', 'v'].contains c then some (.literal ' ' false, rest)
    else if ['A', 'z', 'B', '<', '>'].contains c then some (.assertion, rest)
    else if c = 'b' then (readBoundary modes rest).map fun rest => (.assertion, rest)
    else none

/-! ### Classes -/

/-- The classes that are named between colons. -/
def asciiClasses : List String :=
  ["alnum", "alpha", "ascii", "blank", "cntrl", "digit", "graph", "lower", "print", "punct",
    "space", "upper", "word", "xdigit"]

/-- Read a class that is named between colons, after its bracket; tells whether it is negated. -/
def readAsciiClass (cs : List Char) : Option (Bool × List Char) :=
  match cs with
  | ':' :: rest =>
    let (negated, rest) := match rest with
      | '^' :: rest => (true, rest)
      | rest => (false, rest)
    let name := rest.takeWhile (· ≠ ':')
    match rest.drop name.length with
    | ':' :: ']' :: rest =>
      if asciiClasses.contains (String.ofList name) then some (negated, rest) else none
    | _ => none
  | _ => none

/-- May the atom be a member of a class? -/
def isClassItem (modes : Modes) : Atom → Bool
  | .literal c _ => modes.unicode || c.toNat < 128
  | .letterClass letter => modes.unicode || ['d', 's', 'w'].contains letter
  | .property => true
  | .assertion => false

/-- Read an atom inside a class. -/
def readClassAtom (modes : Modes) : List Char → Option (Atom × List Char)
  | [] => none
  | '\\' :: rest => readEscape modes rest
  | c :: rest => some (.literal c false, rest)

/-- Does the text go on as a range after its first end? -/
def startsRange (modes : Modes) (cs : List Char) : Option (List Char) :=
  match cs with
  | '-' :: rest =>
    match modes.skip rest with
    | ']' :: _ => none
    | '-' :: _ => none
    | rest => some rest
  | _ => none

/-- Read a member of a class: an atom or a range between two characters. -/
def readClassItem (modes : Modes) (cs : List Char) : Option (List Char) := do
  let (first, rest) ← readClassAtom modes cs
  let rest := modes.skip rest
  if rest.isEmpty then none
  else match startsRange modes rest with
    | none => if isClassItem modes first then return rest else none
    | some rest =>
      let (last, rest) ← readClassAtom modes rest
      match first, last with
      | .literal a _, .literal b _ =>
        if a ≤ b && isClassItem modes first && isClassItem modes last then return rest else none
      | _, _ => none

/-- Pass over hyphens that stand for themselves; the count of them. -/
def skipHyphens (modes : Modes) : Nat → List Char → Nat × List Char
  | 0, cs => (0, cs)
  | fuel + 1, cs =>
    match cs with
    | '-' :: rest =>
      let (n, rest) := skipHyphens modes fuel (modes.skip rest)
      (n + 1, rest)
    | cs => (0, cs)

/-- Read what opens a class after its bracket: a negation, hyphens, a bracket that stands for
itself. -/
def readClassStart (modes : Modes) (cs : List Char) : Option (List Char) :=
  let cs := modes.skip cs
  let (negated, cs) := match cs with
    | '^' :: rest => (true, modes.skip rest)
    | cs => (false, cs)
  let (hyphens, cs) := skipHyphens modes cs.length cs
  let cs := match cs with
    | ']' :: rest => if hyphens = 0 then modes.skip rest else cs
    | cs => cs
  if cs.isEmpty || (negated && !modes.unicode) then none else some cs

/-- Read the members of a class up to its closing bracket; the number of members. -/
def readClass (modes : Modes) : Nat → List Char → Option (Nat × List Char)
  | 0, _ => none
  | fuel + 1, cs =>
    match modes.skip cs with
    | [] => none
    | ']' :: rest => some (0, rest)
    | '[' :: rest =>
      match readAsciiClass rest with
      | some (negated, rest) =>
        if negated && !modes.unicode then none
        else (readClass modes fuel rest).map fun (n, rest) => (n + 1, rest)
      | none => do
        let rest ← readClassStart modes rest
        let (inner, rest) ← readClass modes fuel rest
        let (n, rest) ← readClass modes fuel rest
        return (n + inner, rest)
    | '&' :: '&' :: rest => readClass modes fuel rest
    | '-' :: '-' :: rest => readClass modes fuel rest
    | '~' :: '~' :: rest => readClass modes fuel rest
    | cs => do
      let rest ← readClassItem modes cs
      let (n, rest) ← readClass modes fuel rest
      return (n + 1, rest)

/-! ### Repetitions -/

/-- Pass over the mark of a repetition that takes as little as possible. -/
def skipLazy : List Char → List Char
  | '?' :: rest => rest
  | cs => cs

/-- Read a decimal number of 32 bits, with blanks around it; nothing if there is no digit. -/
def readCount (modes : Modes) (cs : List Char) : Option (Option Nat × List Char) :=
  let (ds, rest) := digits (cs.length + 1) (cs.dropWhile Text.isBlank)
  let n := ds.foldl (fun n c => n * 10 + (c.toNat - 48)) 0
  let rest := modes.skip (rest.dropWhile Text.isBlank)
  if ds.isEmpty then some (none, rest) else if n < Nat.pow 2 32 then some (some n, rest) else none
where
  /-- The digits at the start, what the modes ignore passed over after each. -/
  digits : Nat → List Char → List Char × List Char
    | 0, cs => ([], cs)
    | fuel + 1, cs =>
      match cs with
      | c :: rest =>
        if Text.isAsciiDigit c then
          let (ds, rest) := digits fuel (modes.skip rest)
          (c :: ds, rest)
        else ([], cs)
      | [] => ([], [])

/-- The copies of its operand that a repetition needs. -/
def readCounts (modes : Modes) (cs : List Char) : Option (Nat × List Char) := do
  let (low, rest) ← readCount modes (modes.skip cs)
  match rest with
  | '\x7d' :: rest => return (← low, skipLazy (modes.skip rest))
  | ',' :: rest =>
    match modes.skip rest with
    | '\x7d' :: rest => return (max 1 (← low), skipLazy (modes.skip rest))
    | rest =>
      let low ← low
      let (high, rest) ← readCount modes rest
      let high ← high
      match rest with
      | '\x7d' :: rest => if low ≤ high then return (high, skipLazy (modes.skip rest)) else none
      | _ => none
  | _ => none

/-! ### Groups -/

/-- Read the name of a group up to its closing angle bracket. -/
def readName (cs : List Char) : Option (String × List Char) :=
  let name := cs.takeWhile (· ≠ '>')
  let valid := match name with
    | [] => false
    | c :: rest => (c = '_' || Text.isAlphabetic c) && rest.all fun c =>
        c = '_' || c = '.' || c = '[' || c = ']' || Text.isAlphanumeric c
  match cs.drop name.length with
  | '>' :: rest => if valid then some (String.ofList name, rest) else none
  | _ => none

/-- Read mode letters up to a colon or a closing parenthesis, which is left in place. -/
def readModes (seen : List Char) (negated afterSign : Bool) (modes : Modes) :
    List Char → Option (Bool × Modes × List Char)
  | [] => none
  | c :: rest =>
    if c = ':' || c = ')' then
      if afterSign then none else some (!seen.isEmpty, modes, c :: rest)
    else if seen.contains c then none
    else if c = '-' then readModes (c :: seen) true true modes rest
    else if c = 'x' then readModes (c :: seen) negated false { modes with spaced := !negated } rest
    else if c = 'u' then readModes (c :: seen) negated false { modes with unicode := !negated } rest
    else if ['i', 'm', 's', 'U', 'R'].contains c then readModes (c :: seen) negated false modes rest
    else none

/-- What stands before the place that is read, as far as it may be repeated. -/
inductive Operand where
  /-- Nothing, or a change of modes. -/
  | none
  /-- A part whose machine has this size. -/
  | part (size : Nat)
  deriving DecidableEq, Repr

/-- What has been read of a pattern. -/
structure Progress where
  modes : Modes := {}
  /-- The names of the groups. -/
  names : List String := []
  /-- The part that a repetition would repeat. -/
  operand : Operand := .none
  /-- The size of the machine without that part. -/
  size : Nat := 0
  deriving Inhabited

namespace Progress

/-- The size of the machine. -/
def total (progress : Progress) : Nat :=
  match progress.operand with
  | .none => progress.size
  | .part n => progress.size + n

/-- Add a part. -/
def add (progress : Progress) (size : Nat) : Progress :=
  { progress with size := progress.total, operand := .part size }

/-- Go on after a bar or a change of modes. -/
def cut (progress : Progress) : Progress :=
  { progress with size := progress.total, operand := .none }

/-- Repeat the last part. -/
def repeated (progress : Progress) (copies : Nat) : Option Progress :=
  match progress.operand with
  | .none => none
  | .part n => some { progress with operand := .part (n * copies + 1) }

end Progress

/-- The size of the machine for an atom, if the modes allow it. -/
def atomSize (modes : Modes) : Atom → Option Nat
  | .literal c byte =>
    if byte && !modes.unicode && 128 ≤ c.toNat then none else some (c.utf8Size)
  | .letterClass letter =>
    if modes.unicode then
      some (if letter = 'w' || letter = 'W' then 1400 else if letter = 's' || letter = 'S' then 25
        else 150)
    else if ['d', 's', 'w'].contains letter then some 1 else none
  | .property => some 1000
  | .assertion => some 1

/-- What a group opens with. -/
inductive GroupStart where
  /-- A group that is numbered. -/
  | captured
  /-- A group with a name. -/
  | named (name : String)
  /-- A group with modes of its own. -/
  | plain (modes : Modes)
  /-- No group but a change of modes. -/
  | setModes (modes : Modes)
  deriving Repr

/-- Read what follows an opening parenthesis. -/
def readGroupStart (modes : Modes) (cs : List Char) : Option (GroupStart × List Char) :=
  match modes.skip cs with
  | '?' :: 'P' :: '<' :: rest => (readName rest).map fun (name, rest) => (.named name, rest)
  | '?' :: '<' :: '=' :: _ => none
  | '?' :: '<' :: '!' :: _ => none
  | '?' :: '<' :: rest => (readName rest).map fun (name, rest) => (.named name, rest)
  | '?' :: rest =>
    match readModes [] false false modes rest with
    | some (_, modes, ':' :: rest) => some (.plain modes, rest)
    | some (changed, modes, ')' :: rest) => if changed then some (.setModes modes, rest) else none
    | _ => none
  | rest => some (.captured, rest)

/-- Read a pattern up to the end of the text or to a closing parenthesis, which is left in
place. -/
def readBody : Nat → Progress → List Char → Option (Progress × List Char)
  | 0, _, _ => none
  | fuel + 1, progress, cs =>
    let modes := progress.modes
    let group (inner : Modes) (names : List String) (rest : List Char) :
        Option (Progress × List Char) := do
      let (body, rest) ← readBody fuel { modes := inner, names } rest
      match rest with
      | ')' :: rest => readBody fuel { progress.add (body.total + 2) with names := body.names } rest
      | _ => none
    let atom (atom : Atom) (rest : List Char) : Option (Progress × List Char) := do
      let size ← atomSize modes atom
      readBody fuel (progress.add size) rest
    match modes.skip cs with
    | [] => some (progress, [])
    | ')' :: rest => some (progress, ')' :: rest)
    | '(' :: rest =>
      match readGroupStart modes rest with
      | none => none
      | some (.captured, rest) => group modes progress.names rest
      | some (.plain inner, rest) => group inner progress.names rest
      | some (.named name, rest) =>
        if progress.names.contains name then none else group modes (name :: progress.names) rest
      | some (.setModes modes, rest) => readBody fuel { progress.cut with modes } rest
    | '|' :: rest => readBody fuel progress.cut rest
    | '[' :: rest => do
      let rest ← readClassStart modes rest
      let (n, rest) ← readClass modes fuel rest
      readBody fuel (progress.add (4 * n + 1)) rest
    | '?' :: rest => do readBody fuel (← progress.repeated 1) (skipLazy rest)
    | '*' :: rest => do readBody fuel (← progress.repeated 1) (skipLazy rest)
    | '+' :: rest => do readBody fuel (← progress.repeated 1) (skipLazy rest)
    | '\x7b' :: rest => do
      let (copies, rest) ← readCounts modes rest
      readBody fuel (← progress.repeated copies) rest
    | '\\' :: rest => do
      let (escaped, rest) ← readEscape modes rest
      atom escaped rest
    | '.' :: rest => if modes.unicode then readBody fuel (progress.add 12) rest else none
    | '^' :: rest => atom .assertion rest
    | '$' :: rest => atom .assertion rest
    | c :: rest => atom (.literal c false) rest

/-- The size that the machine of a pattern may have. -/
def maxSize : Nat := 327680

/-- Is the text a legal pattern? -/
def isLegal (text : String) : Bool :=
  let cs := text.toList
  match readBody (2 * cs.length + 2) {} cs with
  | some (progress, []) => progress.total ≤ maxSize
  | _ => false

end Pattern

end ViewCompiler
