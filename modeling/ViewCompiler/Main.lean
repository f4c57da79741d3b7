import ViewCompiler.Command.Run

/-!
# The program

Looks at the environment and at the files that a request needs, and carries the request out.
-/

open ViewCompiler

/-- What a path leads to. -/
def lookAt (path : String) : IO FileContent := do
  try
    return .text (← IO.FS.readFile path)
  catch
    | .noFileOrDirectory .. => return .missing
    | _ => return .unreadable

/-- The variables with these names and the files at these paths. -/
def lookAround (names paths : List String) : IO Surroundings := do
  let values ← names.mapM fun name => do return (name, ← IO.getEnv name)
  let contents ← paths.mapM fun path => do return (path, ← lookAt path)
  return {
    environment := fun name => (values.find? (·.1 = name)).bind Prod.snd
    file := fun path => ((contents.find? (·.1 = path)).map Prod.snd).getD .missing }

/-- The text of a file, if it has any. -/
def textOf : FileContent → List String
  | .text content => [content]
  | _ => []

def main (arguments : List String) : IO UInt32 := do
  let invocation := Invocation.ofArguments? arguments
  let usual := [Settings.fileVariable, Settings.directoryVariable, Settings.homeVariable]
  let first ← lookAround usual []
  let settingsPaths := (invocation.map (Invocation.settingsPaths first.environment)).getD []
  let paths := settingsPaths ++ (invocation.map Invocation.commandPaths).getD []
  let second ← lookAround usual paths
  let names := (settingsPaths.flatMap fun path => textOf (second.file path)).flatMap Expansion.names
  let report := Invocation.carryOut (← lookAround (usual ++ names) paths) invocation
  IO.print report.output
  for line in report.errors do IO.eprintln line
  return report.code.toUInt32
