/-!
# Why settings are refused

`SettingsError` lists the causes, `SettingsError.message` words them.
-/

namespace ViewCompiler

/-- A cause to refuse settings. -/
inductive SettingsError where
  | fileNotFound (path : String)
  /-- The file exists and cannot be read. -/
  | unreadableFile
  /-- The text is not that of settings. -/
  | malformedText
  | missingVariable (name : String)
  | invalidDuration (text : String)
  | invalid (reason : String)
  deriving DecidableEq, Repr, Inhabited

/-- The wording of a cause. -/
def SettingsError.message : SettingsError → String
  | fileNotFound path => s!"Config file not found: {path}"
  | unreadableFile => "Failed to read config file: the file has no text"
  | malformedText => "Failed to parse config file: the text is not that of settings"
  | missingVariable name => s!"Missing environment variable: {name}"
  | invalidDuration text => s!"Invalid duration format: {text}"
  | invalid reason => s!"Invalid configuration: {reason}"

end ViewCompiler
