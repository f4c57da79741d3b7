/-!
# Why a filter is refused

`FilterError` lists the causes, `FilterError.message` words them.
-/

namespace ViewCompiler

/-- A cause to refuse a filter. -/
inductive FilterError where
  /-- The field describes the document rather than its content. -/
  | metaField (field : String)
  | missingOperation
  | unsupportedOperation (operation : String)
  | tooManyChildren (operation : String) (count max : Nat)
  | missingField (operation : String)
  | nonConstValue (field valueFrom : String)
  | invalidValue (field operation reason : String)
  | invalidRegex (field : String)
  | fieldNotFound (field : String)
  | binaryField (field : String)
  /-- Only full-text operators reach every field at once. -/
  | wildcardOperation (operation : String)
  /-- The operator has no form in the language of the backend. -/
  | unsupportedTarget (operation target : String)
  deriving DecidableEq, Repr, Inhabited

namespace FilterError

/-- The wording of a cause. -/
def message : FilterError → String
  | metaField field => s!"meta field '{field}' cannot be filtered"
  | missingOperation => "filter operation is required"
  | unsupportedOperation operation => s!"unsupported filter operation '{operation}'"
  | tooManyChildren operation count max =>
    s!"'{operation}' takes at most {max} sub-conditions, got {count}"
  | missingField operation => s!"filter field is required for operation '{operation}'"
  | nonConstValue field valueFrom =>
    s!"filter on '{field}' must take a constant value, got value_from '{valueFrom}'"
  | invalidValue field operation reason =>
    s!"invalid value for '{field}' {operation}: {reason}"
  | invalidRegex field =>
    s!"invalid regular expression for '{field}': the pattern has no meaning"
  | fieldNotFound field => s!"field '{field}' does not exist"
  | binaryField field => s!"binary field '{field}' cannot be filtered"
  | wildcardOperation operation =>
    s!"field '*' only supports match and match_phrase, got '{operation}'"
  | unsupportedTarget operation target =>
    s!"operation '{operation}' cannot be rendered as {target}"

end FilterError

end ViewCompiler
