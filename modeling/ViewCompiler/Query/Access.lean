import ViewCompiler.Filter.Legality
import ViewCompiler.Query.Basic

/-!
# Merged access rules

A caller with several access rules may see the fields that one of them names and read the rows
that one of them admits.

* `Grant`: what a caller may see and read.
* `AccessRule.merge`: the grant of a list of rules over the fields of a view.
-/

namespace ViewCompiler

/-- What a caller may see and read. -/
structure Grant where
  /-- The filter that his rows satisfy; every row does if there is none. -/
  filter : Option Filter := none
  /-- The fields that he may see. -/
  fields : FieldSet := FieldSet.empty
  deriving Inhabited

/-- A cause to refuse access rules. -/
inductive AccessError where
  /-- A rule names a field that the view does not have. -/
  | unknownField (rule field : String)
  /-- A row filter is not legal. -/
  | filter (cause : FilterError)
  deriving DecidableEq, Repr, Inhabited

namespace AccessRule

/-- The row filter of the rule, unless it restricts nothing. -/
def restriction? (rule : AccessRule) : Option Filter := Filter.nonEmpty? rule.rowFilter

/-- Does the view have the fields of the rule, and is its row filter legal? -/
def check [Readers] (fields : FieldSet) (max : Nat) (rule : AccessRule) : Except AccessError Unit :=
  match rule.fields.find? fun name => !fields.contains name with
  | some name => .error (.unknownField rule.name name)
  | none => match rule.restriction? with
    | none => .ok ()
    | some filter => (filter.check fields max).mapError .filter

/-- Are all the rules right? The first fault is the one that is reported. -/
def checkAll [Readers] (fields : FieldSet) (max : Nat) : List AccessRule → Except AccessError Unit
  | [] => .ok ()
  | rule :: rest => do
    rule.check fields max
    checkAll fields max rest

/-- One of the filters must hold; none at all holds always. -/
def oneOf : List Filter → Option Filter
  | [] => none
  | [filter] => some filter
  | filters => some (.disj filters)

/-- The grant of the rules over the fields of a view. A rule without a row filter takes no part in
the merged filter. -/
def merge [Readers] (fields : FieldSet) (max : Nat) (rules : List AccessRule) :
    Except AccessError Grant := do
  checkAll fields max rules
  return {
    filter := oneOf (rules.filterMap restriction?)
    fields := fields.narrowedTo (rules.flatMap AccessRule.fields) }

end AccessRule

end ViewCompiler
