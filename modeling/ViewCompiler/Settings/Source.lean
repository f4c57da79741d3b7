import ViewCompiler.Settings.Basic
import ViewCompiler.Settings.Expansion
import ViewCompiler.Toml.Text

/-!
# Where settings come from

* `Settings.ofText`: settings from a text, in which variables are replaced first.
* `Surroundings`: what a program sees of its environment and its files.
* `Settings.ofFile`, `Settings.load`: settings from a given file, and from the usual places: the
  file that a variable names, the file in the working directory, and the file of the user.
-/

namespace ViewCompiler

/-- What a path leads to. -/
inductive FileContent where
  | missing
  /-- Something that has no text, such as a directory. -/
  | unreadable
  | text (content : String)
  deriving DecidableEq, Repr, Inhabited

/-- What a program sees of its environment and its files. -/
structure Surroundings where
  environment : Environment
  file : String → FileContent

namespace Settings

/-- Settings from a text. -/
def ofText (environment : Environment) (text : String) : Except SettingsError Settings := do
  let expanded ← Expansion.expand environment text
  match (Toml.parse? expanded).bind fun entries => decode (Toml.table .header entries).toJson with
  | none => .error .malformedText
  | some settings => do
    settings.query.check
    return settings

/-- Settings from the file at a path. -/
def ofFile (around : Surroundings) (path : String) : Except SettingsError Settings :=
  match around.file path with
  | .missing => .error (.fileNotFound path)
  | .unreadable => .error .unreadableFile
  | .text content => ofText around.environment content

/-- The variable that names the file of the settings. -/
def fileVariable : String := "VISTA_CONFIG"

/-- The file of the settings in the working directory. -/
def localFile : String := "vista.toml"

/-- The variable that names the directory of the user's settings. -/
def directoryVariable : String := "XDG_CONFIG_HOME"

/-- The variable that names the directory of the user. -/
def homeVariable : String := "HOME"

/-- The directory in which the user keeps settings of programs. -/
def userDirectory? (environment : Environment) : Option String :=
  match (environment directoryVariable).filter (·.startsWith "/") with
  | some path => some path
  | none => ((environment homeVariable).filter (· ≠ "")).map (· ++ "/.config")

/-- The file of the user. -/
def userFile? (environment : Environment) : Option String :=
  (userDirectory? environment).map (· ++ "/vista/config.toml")

/-- The usual places of a file of settings. -/
def places (environment : Environment) : List String := localFile :: (userFile? environment).toList

/-- Settings from the first of the usual places that there is. -/
def load (around : Surroundings) : Except SettingsError Settings :=
  match around.environment fileVariable with
  | some path => ofFile around path
  | none =>
    match (places around.environment).find? fun path => around.file path ≠ .missing with
    | some path => ofFile around path
    | none => .ok {}

end Settings

end ViewCompiler
