import ViewCompiler.Pattern.Legality
import ViewCompiler.Readers.Basic
import ViewCompiler.Sql.Statement

/-!
# The readers of the program
-/

namespace ViewCompiler

/-- Regular expressions without look-around and back references, and generic SQL. -/
instance Readers.standard : Readers where
  isPattern := Pattern.isLegal
  statements? := Sql.parse?

end ViewCompiler
