import ViewCompiler.Page.Basic
import ViewCompiler.Settings.Duration

/-!
# Sessions with backends

* `Call`: what can be asked of a backend, and `Call.Reply`, what it answers if it does not fail.
* `Session`: the calls that answer a query, where each may depend on the replies to those before.
  A call that fails ends the session.
* `Session.run`: a session with backends that have a state; it gives the calls that were made.
-/

namespace ViewCompiler

/-- What can be asked of a backend. -/
inductive Call where
  /-- The indices that hold documents of base types in a time window. -/
  | resolve (baseTypes : List String) (start stop : Int)
  /-- A search of indices, perhaps as the first page of a scroll. -/
  | search (indices : List String) (body : String) (scroll : Option String)
  /-- The next page of a scroll. -/
  | scroll (scrollId keepAlive : String)
  /-- A search at a point in time, which knows its indices. -/
  | searchAt (body : String)
  /-- A point in time for indices. -/
  | openPit (indices : List String) (keepAlive : String)
  /-- The number of documents of indices that a query matches. -/
  | count (indices : List String) (body : String)
  /-- A page of the rows of a statement. -/
  | fetch (sql : String) (nextUri : Option String) (limit : Nat) (timeout : Duration)
  deriving DecidableEq, Repr, Inhabited

/-- What a backend answers to a call. -/
abbrev Call.Reply : Call → Type
  | resolve .. => List String
  | count .. => Nat
  | search .. | scroll .. | searchAt .. | openPit .. | fetch .. => String

/-- The calls that answer a query. -/
inductive Session where
  /-- The query is answered. -/
  | done (result : Except QueryError Page)
  /-- A reply is needed to go on. -/
  | ask (call : Call) (next : call.Reply → Session)

/-- Backends with a state. -/
abbrev Backends (σ : Type) := (call : Call) → σ → Except BackendError call.Reply × σ

namespace Session

/-- Go on with a value, or end with the error in its place. -/
def attempt {α : Type} (result : Except QueryError α) (next : α → Session) : Session :=
  match result with
  | .error error => .done (.error error)
  | .ok value => next value

/-- What comes of a session. -/
structure Outcome (σ : Type) where
  result : Except QueryError Page
  /-- The calls that were made, in order. -/
  calls : List Call
  /-- The state of the backends afterwards. -/
  state : σ

/-- Run a session with backends in a state. -/
def run {σ : Type} (backends : Backends σ) : Session → σ → Outcome σ
  | .done result, state => ⟨result, [], state⟩
  | .ask call next, state =>
    match backends call state with
    | (.error failure, state) => ⟨.error (.backend failure), [call], state⟩
    | (.ok reply, state) =>
      let outcome := (next reply).run backends state
      { outcome with calls := call :: outcome.calls }

end Session

end ViewCompiler
