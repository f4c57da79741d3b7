import ViewCompiler.Settings.Error
import ViewCompiler.Text.Basic

/-!
# Variables in settings

`Expansion.expand` puts the values of variables into a text. A variable is written as a dollar sign
with a name behind it, which ends at the first character that is no letter, digit or underscore, or
with a name between braces. A dollar sign without a name stands for itself. What is put in is not
read again.
-/

namespace ViewCompiler

/-- The variables of a process, by name. -/
abbrev Environment := String → Option String

namespace Expansion

/-- A piece of a text with variables. -/
inductive Piece where
  | char (c : Char)
  | variable (name : List Char)
  deriving DecidableEq, Repr

/-- May the character stand in a name without braces? -/
def isNameChar (c : Char) : Bool := Text.isAlphanumeric c || c = '_'

/-- How a text is read from a place on. -/
inductive Mode where
  /-- Outside of variables. -/
  | text
  /-- Right after a dollar sign. -/
  | dollar
  /-- In a name without braces; its characters so far, the last one first. -/
  | bare (name : List Char)
  /-- In a name between braces. -/
  | braced (name : List Char)
  deriving DecidableEq, Repr

/-- The pieces of a text from a place on. -/
def pieces : Mode → List Char → List Piece
  | .text, [] => []
  | .dollar, [] => [.char '$']
  | .bare name, [] => [.variable name.reverse]
  | .braced name, [] => [.variable name.reverse]
  | .text, c :: rest => if c = '$' then pieces .dollar rest else .char c :: pieces .text rest
  | .dollar, c :: rest =>
    if c = '\x7b' then pieces (.braced []) rest
    else if isNameChar c then pieces (.bare [c]) rest
    else if c = '$' then .char '$' :: pieces .dollar rest
    else .char '$' :: .char c :: pieces .text rest
  | .bare name, c :: rest =>
    if isNameChar c then pieces (.bare (c :: name)) rest
    else if c = '$' then .variable name.reverse :: pieces .dollar rest
    else .variable name.reverse :: .char c :: pieces .text rest
  | .braced name, c :: rest =>
    if c = '\x7d' then .variable name.reverse :: pieces .text rest
    else pieces (.braced (c :: name)) rest

/-- The name of a variable. -/
def name? : Piece → Option String
  | .char _ => none
  | .variable name => some (String.ofList name)

/-- The names of the variables in a text, in order. -/
def names (text : String) : List String := (pieces .text text.toList).filterMap name?

/-- The text of a piece. -/
def value (environment : Environment) : Piece → Except SettingsError (List Char)
  | .char c => .ok [c]
  | .variable name =>
    match environment (String.ofList name) with
    | some text => .ok text.toList
    | none => .error (.missingVariable (String.ofList name))

/-- The text with the values of its variables; the first one that has none is the error. -/
def expand (environment : Environment) (text : String) : Except SettingsError String :=
  ((pieces .text text.toList).mapM (value environment)).map fun parts => String.ofList parts.flatten

end Expansion

end ViewCompiler
