import ViewCompiler.Sql.Keyword

/-!
# Placeholders in statements

A statement of a scope names its inputs by placeholders: two braces around a point and an id, or
around the word `node` and an id between double quotes.

* `Template.readPlaceholder`: one placeholder at the start of a text.
* `Template.render`: the text with every placeholder replaced. What is put in is not read again.
  Two opening braces that start no placeholder are an error.
-/

namespace ViewCompiler

/-- A cause why a text cannot be filled in. -/
inductive TemplateError where
  /-- A placeholder names something that is no input. -/
  | unknownNode (id : String)
  /-- Two opening braces start no placeholder. -/
  | malformed (snippet : String)
  deriving DecidableEq, Repr, Inhabited

/-- The wording of a cause. -/
def TemplateError.message : TemplateError → String
  | unknownNode id => s!"placeholder references node '{id}' which is not an input"
  | malformed snippet => s!"malformed placeholder near '{snippet}'"

namespace Template

/-- May the character stand in an id without quotes? -/
def isIdChar (c : Char) : Bool :=
  Text.isAsciiLetter c || Text.isAsciiDigit c || c = '_' || c = '-'

/-- Pass over blanks and two closing braces. -/
def readClose (cs : List Char) : Option (List Char) :=
  Text.dropPrefix? ['\x7d', '\x7d'] (Text.trimStart cs)

/-- Read the id of a placeholder: after a point, or between quotes after the word `node`. -/
def readId (cs : List Char) : Option (List Char × List Char) :=
  match cs with
  | '.' :: rest =>
    let id := rest.takeWhile isIdChar
    if id.isEmpty then none else some (id, rest.drop id.length)
  | 'n' :: 'o' :: 'd' :: 'e' :: rest =>
    match Sql.blanks rest with
    | some ('"' :: rest) =>
      let id := rest.takeWhile (· ≠ '"')
      match rest.drop id.length with
      | '"' :: rest => if id.isEmpty then none else some (id, rest)
      | _ => none
    | _ => none
  | _ => none

/-- Read a placeholder at the start of a text: its id and what follows. -/
def readPlaceholder (cs : List Char) : Option (List Char × List Char) := do
  let rest ← Text.dropPrefix? ['\x7b', '\x7b'] cs
  let (id, rest) ← readId (Text.trimStart rest)
  let rest ← readClose rest
  return (id, rest)

/-- A text cut at its first placeholder. -/
structure Cut where
  /-- The text before the placeholder. -/
  gap : List Char
  /-- The id that the placeholder names. -/
  id : List Char
  /-- The text after the placeholder. -/
  rest : List Char
  deriving DecidableEq, Repr

/-- Cut a text at its first placeholder. -/
def cut? : List Char → Option Cut
  | [] => none
  | c :: cs =>
    match readPlaceholder (c :: cs) with
    | some (id, rest) => some ⟨[], id, rest⟩
    | none => (cut? cs).map fun cut => { cut with gap := c :: cut.gap }

/-- The number of characters that are quoted from a malformed place. -/
def snippetLength : Nat := 24

/-- The place of two opening braces in the first `length` characters of a text, quoted from the
whole text. -/
def malformed? (length : Nat) : List Char → Option TemplateError
  | '\x7b' :: '\x7b' :: rest =>
    if 2 ≤ length then
      some (.malformed (String.ofList (('\x7b' :: '\x7b' :: rest).take snippetLength)))
    else none
  | [] => none
  | _ :: rest => if length = 0 then none else malformed? (length - 1) rest

/-- Replace the placeholders of a text; the ids that were asked for, in order, and the result. -/
def fill (resolve : String → Except TemplateError String) :
    Nat → List Char → List String × Except TemplateError (List Char)
  | 0, cs => ([], .ok cs)
  | fuel + 1, cs =>
    match cut? cs with
    | none =>
      match malformed? cs.length cs with
      | some error => ([], .error error)
      | none => ([], .ok cs)
    | some cut =>
      match malformed? cut.gap.length cs with
      | some error => ([], .error error)
      | none =>
        let id := String.ofList cut.id
        match resolve id with
        | .error error => ([id], .error error)
        | .ok text =>
          let (asked, result) := fill resolve fuel cut.rest
          (id :: asked, result.map fun rest => cut.gap ++ text.toList ++ rest)

/-- The ids that a text asks for, in order, up to the first failure. -/
def asked (resolve : String → Except TemplateError String) (template : String) : List String :=
  (fill resolve (template.toList.length + 1) template.toList).1

/-- The text with every placeholder replaced. -/
def render (resolve : String → Except TemplateError String) (template : String) :
    Except TemplateError String :=
  (fill resolve (template.toList.length + 1) template.toList).2.map String.ofList

end Template

end ViewCompiler
