/-!
# Why an answer gives no page

* `PayloadError`: why the answer of a backend is not understood.
* `RowError`: why a row of an answer is not shaped.
-/

namespace ViewCompiler

/-- A cause why the answer of a backend is not understood. -/
inductive PayloadError where
  | badSearch
  | badEnvelope
  | emptyEnvelope
  | badTable
  | noColumns
  | noRows
  | badCount
  deriving DecidableEq, Repr, Inhabited

/-- The wording of a cause. -/
def PayloadError.message : PayloadError → String
  | badSearch => "invalid search response: the text has another form"
  | badEnvelope => "invalid DSL response: the text has another form"
  | emptyEnvelope => "DSL response has no data"
  | badTable => "invalid SQL response: the text has another form"
  | noColumns => "SQL response has no columns"
  | noRows => "SQL response has no rows"
  | badCount => "count result is not a non-negative integer"

/-- A cause why a row is not shaped. -/
inductive RowError where
  /-- The document with this id has no content. -/
  | noSource (id : String)
  | notAnArray
  /-- A path goes through something that holds no members. -/
  | notAnObject (segment : String)
  deriving DecidableEq, Repr, Inhabited

/-- The wording of a cause. -/
def RowError.message : RowError → String
  | noSource id => s!"document '{id}' has no _source"
  | notAnArray => "row is not an array of column values"
  | notAnObject segment => s!"path segment '{segment}' is not an object"

end ViewCompiler
