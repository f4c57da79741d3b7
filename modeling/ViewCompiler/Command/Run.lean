import ViewCompiler.Command.Arguments
import ViewCompiler.Readers.Standard
import ViewCompiler.Request.Search
import ViewCompiler.Scope.Check
import ViewCompiler.Settings.Source
import ViewCompiler.View.Codec

/-!
# Carrying out commands

* `Command.compiled`: the text of the request that a query of a view compiles to.
* `Invocation.carryOut`: what the program prints and the code with which it ends. Settings are read
  before anything else, and embedded languages by `Readers.standard`.
-/

namespace ViewCompiler

/-- What the program prints and the code with which it ends. -/
structure Report where
  code : Nat := 0
  /-- The text for the standard output. -/
  output : String := ""
  /-- The lines for the standard error output. -/
  errors : List String := []
  deriving DecidableEq, Repr, Inhabited

namespace Report

/-- The report of a failure. -/
def failure (line : String) : Report := { code := 1, errors := [line] }

/-- The report of a text. -/
def success (text : String) : Report := { output := text ++ "\n" }

end Report

/-- The name of a class of errors. -/
def ErrorClass.name : ErrorClass → String
  | badRequest => "BadRequest"
  | notFound => "NotFound"
  | internal => "Internal"

namespace Command

/-- The file at a path as a value of its kind. -/
def readFile {α : Type} (around : Surroundings) (path : String) (decode : String → Option α) :
    Except Report α :=
  match around.file path with
  | .missing => .error (.failure s!"Error reading file '{path}': there is no such file")
  | .unreadable => .error (.failure s!"Error reading file '{path}': it has no text")
  | .text content =>
    match decode content with
    | none => .error (.failure s!"Error parsing '{path}': it has another form")
    | some value => .ok value

/-- The routes of a search view: those of the given indices, or those of the base types. -/
def routes (view : View) (indices : List String) : Except CompileError NodeRoutes :=
  let types := BaseTypes.ofView view
  if view.engine = .indexBase && !indices.isEmpty then types.route indices
  else .ok types.direct.byNode

/-- The statement of a request and the one that counts its rows. -/
def statementText (request : SqlRequest) : String :=
  match request.countSql with
  | none => request.sql
  | some count => request.sql ++ "\n-- count\n" ++ count

/-- The text of the request that a query of a view compiles to. -/
def compiled [Readers] (settings : QuerySettings) (view : View) (query : Query)
    (indices : List String) : Except QueryError String := do
  let view ← (view.checked settings).mapError .view
  let pagination ← (query.pagination view.engine).mapError .query
  if view.engine = .sql then
    let (request, _) ← view.sqlRequest settings query pagination
    return statementText request
  else
    let routes ← (routes view indices).mapError .compile
    let (request, _) ← view.searchRequest settings query pagination routes
    return request.encode.pretty

/-- Compile a query of a view. -/
def runCompile [Readers] (around : Surroundings) (settings : QuerySettings)
    (viewPath queryPath : String) (indices : List String) : Except Report Report := do
  let view ← readFile around viewPath View.ofText?
  let query ← readFile around queryPath Query.ofText?
  match compiled settings view query indices with
  | .ok text => return .success text
  | .error error =>
    return .failure s!"Compilation error [{error.blame.name}]: {error.message}"

/-- Check a view. -/
def runValidate [Readers] (around : Surroundings) (settings : QuerySettings) (viewPath : String) :
    Except Report Report := do
  let view ← readFile around viewPath View.ofText?
  match view.checked settings with
  | .ok view =>
    let fields := view.fields.size
    let nodes := view.scope.length
    return .success s!"OK: {viewPath} is valid ({fields} fields, {nodes} scope nodes)"
  | .error defect => return .failure s!"Validation error: {(QueryError.view defect).message}"

/-- Carry out a command. -/
def run [Readers] (around : Surroundings) (settings : QuerySettings) : Command → Report
  | compile view query indices =>
    match runCompile around settings view query indices with
    | .ok report => report
    | .error report => report
  | validate view =>
    match runValidate around settings view with
    | .ok report => report
    | .error report => report

/-- The files that a command reads. -/
def paths : Command → List String
  | compile view query _ => [view, query]
  | validate view => [view]

end Command

namespace Invocation

/-- How the program is used. -/
def usage : String :=
  "Usage: vista [--config FILE] compile --view FILE --query FILE [--indices A,B]\n" ++
  "       vista [--config FILE] validate --view FILE\n"

/-- The name and the version of the program. -/
def versionText : String := "vista 0.1.0\n"

/-- The settings of a request: those of the given file or those of the usual places. -/
def settings (around : Surroundings) : Option String → Except SettingsError Settings
  | some path => Settings.ofFile around path
  | none => Settings.load around

/-- Carry out a request; no request at all is a wrong use of the command line. -/
def carryOut (around : Surroundings) : Option Invocation → Report
  | none => { code := 2, errors := [usage] }
  | some .help => { output := usage }
  | some .version => { output := versionText }
  | some (.run path command) =>
    match settings around path with
    | .error error => .failure s!"Error loading settings: {error.message}"
    | .ok settings => command.run around settings.query

/-- The files of settings that a request may read. -/
def settingsPaths (environment : Environment) : Invocation → List String
  | .run (some path) _ => [path]
  | .run none _ =>
    (environment Settings.fileVariable).toList ++ Settings.places environment
  | _ => []

/-- The other files that a request reads. -/
def commandPaths : Invocation → List String
  | .run _ command => command.paths
  | _ => []

end Invocation

end ViewCompiler
