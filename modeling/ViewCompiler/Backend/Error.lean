/-!
# Failures of backends

A `BackendError` is what a backend answers when it does not do what it was asked for.
-/

namespace ViewCompiler

/-- A failure of a backend. -/
structure BackendError where
  /-- The status that the backend answered with, if it answered at all. -/
  status : Option Nat := none
  /-- What the backend says. -/
  message : String
  deriving DecidableEq, Repr, Inhabited

namespace BackendError

/-- Does the backend not have what it was asked for? -/
def isNotFound (error : BackendError) : Bool := error.status = some 404

/-- The wording of a failure. -/
def text (error : BackendError) : String :=
  match error.status with
  | some code => "backend returned " ++ toString code ++ ": " ++ error.message
  | none => "backend request failed: " ++ error.message

end BackendError

end ViewCompiler
