import ViewCompiler.Backend.Error
import ViewCompiler.Page.Error
import ViewCompiler.Query.Access
import ViewCompiler.Relation.Error
import ViewCompiler.Scope.Defect
import ViewCompiler.Settings.Error

/-!
# Why a query has no answer

* `QueryDefect`: what is wrong with a query itself.
* `QueryError`: every cause why a query has no answer.
* `QueryError.blame`: is it the caller's fault, is something missing, or is it a fault inside?
-/

namespace ViewCompiler

/-- What is wrong with a query. -/
inductive QueryDefect where
  | unnamedSort
  | undirectedSort (field : String)
  | scrollWithCursor
  | offsetWithContinuation
  | scrollSql
  | pointInTimeSql
  /-- An access rule names a field that the view does not have. -/
  | ruleField (rule field : String)
  deriving DecidableEq, Repr, Inhabited

/-- The wording of a defect. -/
def QueryDefect.message : QueryDefect → String
  | unnamedSort => "sort field is required"
  | undirectedSort field => s!"sort direction is required for '{field}'"
  | scrollWithCursor => "scroll and search_after cannot be combined"
  | offsetWithContinuation => "offset cannot be combined with scroll or search_after"
  | scrollSql => "scroll is not supported for SQL views"
  | pointInTimeSql => "point-in-time is not supported for SQL views"
  | ruleField rule field =>
    s!"row/column rule '{rule}' references field '{field}' which does not exist in the view"

/-- Who has to act on an error. -/
inductive ErrorClass where
  | badRequest
  | notFound
  | internal
  deriving DecidableEq, Repr, Inhabited

/-- A cause why a query has no answer. -/
inductive QueryError where
  | view (defect : ViewDefect)
  | query (defect : QueryDefect)
  | binarySort (field : String)
  | unknownFilterField (field : String)
  | filter (cause : FilterError)
  | compile (cause : CompileError)
  | backend (failure : BackendError)
  | payload (cause : PayloadError)
  /-- Some rows of the answer are not shaped; the first fault is worded. -/
  | rows (failed total : Nat) (first : String)
  | settings (cause : SettingsError)
  deriving DecidableEq, Repr, Inhabited

namespace QueryError

/-- The words that point to a node. -/
def nodeSuffix : Option String → String
  | none => ""
  | some id => s!" (node '{id}')"

/-- The wording of a cause. -/
def message : QueryError → String
  | view defect => "invalid data view" ++ nodeSuffix defect.node? ++ ": " ++ defect.message
  | query defect => "invalid query: " ++ defect.message
  | binarySort field => s!"binary field sort not supported: '{field}'"
  | unknownFilterField field => s!"filter field '{field}' does not exist in the view"
  | filter cause => "invalid filter: " ++ cause.message
  | compile cause => "failed to compile view" ++ nodeSuffix cause.node? ++ ": " ++ cause.message
  | backend failure => failure.text
  | payload cause => "malformed backend payload: " ++ cause.message
  | rows failed total first => s!"failed to process {failed} of {total} rows: {first}"
  | settings cause => cause.message

/-- The node that an error is about. -/
def node? : QueryError → Option String
  | view defect => defect.node?
  | compile cause => cause.node?
  | _ => none

/-- Who has to act on an error. -/
def blame : QueryError → ErrorClass
  | view _ | query _ | binarySort _ | unknownFilterField _ | filter _ => .badRequest
  | backend failure => if failure.isNotFound then .notFound else .internal
  | _ => .internal

/-- An error of access rules as an error of the query. -/
def ofAccess : AccessError → QueryError
  | .unknownField rule field => .query (.ruleField rule field)
  | .filter cause => .filter cause

end QueryError

end ViewCompiler
