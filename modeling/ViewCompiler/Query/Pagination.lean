import ViewCompiler.Query.Error

/-!
# Pagination

`Query.pagination` finds the one way in which a query pages through its rows; ways that exclude
each other, or that the engine does not have, are refused.
-/

namespace ViewCompiler

/-- A way to page through rows. -/
inductive Pagination where
  /-- Skip a number of rows. -/
  | offset (count : Nat)
  /-- Open a scroll, or go on with an open one. -/
  | scroll (keepAlive scrollId : Option String)
  /-- Go on after the sort values of a row, perhaps at a point in time. -/
  | searchAfter (cursor : List Json) (pitId keepAlive : Option String)
  /-- Go on where the gateway stopped. -/
  | sqlCursor (cursor : List Json)
  deriving Inhabited

namespace Pagination

/-- Are pages found by a cursor? -/
def isCursor : Pagination → Bool
  | searchAfter .. | sqlCursor _ => true
  | _ => false

/-- The values of the cursor. -/
def cursor : Pagination → List Json
  | searchAfter cursor _ _ => cursor
  | sqlCursor cursor => cursor
  | _ => []

end Pagination

namespace Query

/-- Does the query page by cursor? -/
def wantsCursor (query : Query) : Bool := query.useCursor || query.cursor.isSome

/-- Does the query page by scroll? -/
def wantsScroll (query : Query) : Bool := query.scroll.isSome || query.scrollId.isSome

/-- The way in which the query pages. -/
def pagination (query : Query) (engine : Engine) : Except QueryDefect Pagination :=
  if query.wantsCursor && query.wantsScroll then .error .scrollWithCursor
  else if (query.wantsCursor || query.wantsScroll) && 0 < query.offset then
    .error .offsetWithContinuation
  else if query.wantsScroll then
    if engine = .sql then .error .scrollSql
    else .ok (.scroll query.scroll query.scrollId)
  else if query.wantsCursor then
    let cursor := query.cursor.getD {}
    if engine = .sql then
      if cursor.pitId.isSome || cursor.pitKeepAlive.isSome then .error .pointInTimeSql
      else .ok (.sqlCursor cursor.values)
    else .ok (.searchAfter cursor.values (cursor.pitId.filter (· ≠ ""))
      (cursor.pitKeepAlive.filter (· ≠ "")))
  else .ok (.offset query.offset)

end Query

end ViewCompiler
