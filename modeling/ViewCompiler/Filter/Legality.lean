import ViewCompiler.Filter.Predicate
import ViewCompiler.Readers.Basic

/-!
# Legality of filters

* `Filter.checkValue`: does the value of a leaf suit its operator?
* `Filter.checkTree`: are all operators known, all values suitable and all fields there?
* `Filter.check`: the same for a whole filter; one that restricts nothing is legal.
* `Filter.missingField?`: the first field of a filter that a set does not have.

A filter is checked from the root to its leaves and from the left to the right; the first fault is
the one that is reported.
-/

namespace ViewCompiler

namespace Filter

/-- The value of the filter does not suit its operator. -/
def unsuitable (filter : Filter) (reason : String) : FilterError :=
  .invalidValue filter.field filter.operation reason

/-- Fail with an error unless the condition holds. -/
def require (condition : Bool) (error : FilterError) : Except FilterError Unit :=
  if condition then .ok () else .error error

/-- An operator for single values needs a value that is neither array nor object. -/
def checkSingle (filter : Filter) (operator : Operator) : Except FilterError Unit := do
  let value := filter.value.getD .null
  require (!(operator.takesSingleValue && value.isContainer))
    (filter.unsuitable "expected a single value")
  require (!(operator.takesSingleValue && value.isNull)) (filter.unsuitable "value is required")

/-- A pattern operator needs a text, and a regular expression must be one. -/
def checkPattern [Readers] (filter : Filter) (operator : Operator) : Except FilterError Unit :=
  if operator.takesPattern then
    match filter.value.getD .null with
    | .string pattern =>
      require (operator ≠ .regex || Readers.isPattern pattern) (.invalidRegex filter.field)
    | _ => .error (filter.unsuitable "expected a string")
  else .ok ()

/-- Is the value a number with a unit? -/
def isOffset : Json → Bool
  | .array [.number _, .string _] => true
  | _ => false

/-- An operator for several values needs the right number of them. -/
def checkList (filter : Filter) (operator : Operator) : Except FilterError Unit :=
  let value := filter.value.getD .null
  let count := (value.items?.getD []).length
  match operator with
  | .isIn | .notIn => require (0 < count) (filter.unsuitable "expected a non-empty array")
  | .range | .outRange | .between =>
    require (count = 2) (filter.unsuitable "expected an array of 2 bounds")
  | .before => require (isOffset value) (filter.unsuitable "expected [amount, unit]")
  | _ => .ok ()

/-- Does the value of the filter suit its operator? An operator without a value takes any. -/
def checkValue [Readers] (filter : Filter) (operator : Operator) : Except FilterError Unit :=
  if operator.takesNoValue then .ok ()
  else do
    require (filter.valueFrom = "" || filter.valueFrom = constant)
      (.nonConstValue filter.field filter.valueFrom)
    checkSingle filter operator
    checkPattern filter operator
    checkList filter operator

/-- Is there a field of the right type for the leaf? -/
def checkField (fields : FieldSet) (filter : Filter) (operator : Operator) :
    Except FilterError Unit :=
  if filter.field = allFields then
    require operator.isScoring (.wildcardOperation filter.operation)
  else match fields.get? filter.field with
    | none => .error (.fieldNotFound filter.field)
    | some field => do
      require (!field.type.isBinary) (.binaryField filter.field)
      require (!((operator = .empty || operator = .notEmpty) && !field.type.isString))
        (filter.unsuitable "only string fields can be tested for emptiness")

/-- Is the filter legal as a leaf with this operator? -/
def checkLeaf [Readers] (fields : FieldSet) (filter : Filter) (operator : Operator) :
    Except FilterError Unit := do
  require (filter.field ≠ "") (.missingField filter.operation)
  checkValue filter operator
  checkField fields filter operator

mutual

/-- Is the filter legal over these fields, with at most `max` children for each `and` and `or`? -/
def checkTree [Readers] (fields : FieldSet) (max : Nat) : Filter → Except FilterError Unit
  | ⟨field, operation, children, valueFrom, value⟩ => do
    require (!metaFields.contains field) (.metaField field)
    require (operation ≠ "") .missingOperation
    match Operator.ofName? operation with
    | none => .error (.unsupportedOperation operation)
    | some operator =>
      if operator.isLogical then do
        require (children.length ≤ max) (.tooManyChildren operation children.length max)
        checkTrees fields max children
      else checkLeaf fields ⟨field, operation, children, valueFrom, value⟩ operator

/-- Are all the filters legal? -/
def checkTrees [Readers] (fields : FieldSet) (max : Nat) : List Filter → Except FilterError Unit
  | [] => .ok ()
  | filter :: rest => do
    checkTree fields max filter
    checkTrees fields max rest

end

/-- Is the filter legal over these fields? One that restricts nothing is. -/
def check [Readers] (fields : FieldSet) (max : Nat) (filter : Filter) : Except FilterError Unit :=
  if filter.isEmpty then .ok () else checkTree fields max filter

/-- The first field that the filter names and the set does not have. -/
def missingField? (fields : FieldSet) (filter : Filter) : Option String :=
  filter.referenced.find? fun name => name ≠ allFields && !fields.contains name

end Filter

end ViewCompiler
