import ViewCompiler.Text.Basic

/-!
# The command line

* `Command`: what the program is asked to do.
* `Invocation.ofArguments?`: the command line as a request; nothing if it is used wrongly.

An option may have its value behind an equals sign, and an option of one letter may have it right
behind itself. The file of the settings may be given before or after the name of the command; the
last one counts.
-/

namespace ViewCompiler

/-- What the program is asked to do. -/
inductive Command where
  /-- Print the request that a query of a view compiles to. -/
  | compile (view query : String) (indices : List String)
  /-- Check a view. -/
  | validate (view : String)
  deriving DecidableEq, Repr, Inhabited

/-- A request on the command line. -/
inductive Invocation where
  /-- Print how the program is used. -/
  | help
  /-- Print the version. -/
  | version
  /-- Carry out a command, perhaps with settings from a given file. -/
  | run (settings : Option String) (command : Command)
  deriving DecidableEq, Repr, Inhabited

/-- An argument by its form. -/
inductive Argument where
  /-- A plain text. -/
  | plain (text : String)
  /-- An option with a long name, and the value behind the equals sign. -/
  | long (name : String) (value : Option String)
  /-- Options of one letter each. -/
  | short (letters : List Char)
  /-- The mark behind which all arguments are plain. -/
  | escape
  deriving DecidableEq, Repr, Inhabited

namespace Argument

/-- The form of an argument. -/
def ofText (text : String) : Argument :=
  match text.toList with
  | ['-', '-'] => .escape
  | '-' :: '-' :: rest =>
    let name := rest.takeWhile (· ≠ '=')
    .long (String.ofList name) (match rest.drop name.length with
      | _ :: value => some (String.ofList value)
      | [] => none)
  | '-' :: c :: rest => .short (c :: rest)
  | _ => .plain text

end Argument

/-- The values that options have been given. -/
structure Options where
  settings : Option String := none
  view : Option String := none
  query : Option String := none
  indices : List String := []
  deriving DecidableEq, Repr, Inhabited

namespace Options

/-- Give a value to an option that takes a path, once. -/
def givePath (current : Option String) (value : String) : Option (Option String) :=
  if current.isSome || value = "" then none else some (some value)

/-- Give a value to the option with a long name, if it is one of those that are known. -/
def give (options : Options) (known : List String) (name value : String) : Option Options :=
  if !known.contains name then none
  else if name = "config" then
    (givePath options.settings value).map fun path => { options with settings := path }
  else if name = "view" then
    (givePath options.view value).map fun path => { options with view := path }
  else if name = "query" then
    (givePath options.query value).map fun path => { options with query := path }
  else if name = "indices" then
    some { options with
      indices := options.indices ++ (Text.splitOn ',' value.toList).map String.ofList }
  else none

end Options

namespace Invocation

/-- The options of every command, by their long names. -/
def sharedOptions : List String := ["config"]

/-- What the program prints before any command is known. -/
inductive Notice where
  | help
  | version
  deriving DecidableEq, Repr

/-- What comes of reading options. -/
inductive Reading where
  /-- The command line is used wrongly. -/
  | wrong
  /-- Something is printed, whatever follows. -/
  | notice (notice : Notice)
  /-- The options end before a plain argument, or with the command line. -/
  | options (options : Options) (rest : List String)
  deriving DecidableEq, Repr

/-- The plain argument that an option takes as its value. -/
def value? : List String → Option (String × List String)
  | [] => none
  | text :: rest =>
    match Argument.ofText text with
    | .plain text => some (text, rest)
    | _ => none

/-- Read options up to a plain argument. `known` are the long names of those that take a value,
`notices` the names of those that print something. -/
def readOptions (known : List String) (notices : List (String × Notice)) :
    Nat → Options → List String → Reading
  | 0, _, _ => .wrong
  | _, options, [] => .options options []
  | fuel + 1, options, text :: rest =>
    let take (name : String) (value : Option String) : Reading :=
      match value with
      | some value => match options.give known name value with
        | none => .wrong
        | some options => readOptions known notices fuel options rest
      | none =>
        if !known.contains name then .wrong
        else match value? rest with
          | none => .wrong
          | some (value, rest) => match options.give known name value with
            | none => .wrong
            | some options => readOptions known notices fuel options rest
    match Argument.ofText text with
    | .plain _ => .options options (text :: rest)
    | .escape => if rest.isEmpty then .options options [] else .wrong
    | .long name value =>
      match notices.find? fun entry => entry.1 = name with
      | some (_, notice) => if value.isNone then .notice notice else .wrong
      | none => take name value
    | .short ('h' :: _) => .notice .help
    | .short ('V' :: _) => if notices.any (·.2 = .version) then .notice .version else .wrong
    | .short ['c'] => take "config" none
    | .short ('c' :: '=' :: value) => take "config" (some (String.ofList value))
    | .short ('c' :: value) => take "config" (some (String.ofList value))
    | .short _ => .wrong

/-- What is printed. -/
def ofNotice : Notice → Invocation
  | .help => .help
  | .version => .version

/-- The command with a name, with the options that it was given. -/
def command? (name : String) (options : Options) : Option Command :=
  match name, options.view, options.query with
  | "compile", some view, some query => some (.compile view query options.indices)
  | "validate", some view, _ => some (.validate view)
  | _, _, _ => none

/-- The long names of the options of a command. -/
def optionsOf? (name : String) : Option (List String) :=
  match name with
  | "compile" => some (sharedOptions ++ ["view", "query", "indices"])
  | "validate" => some (sharedOptions ++ ["view"])
  | _ => none

/-- The request for the command with a name. -/
def ofCommand? (settings : Option String) (name : String) (rest : List String) :
    Option Invocation := do
  let known ← optionsOf? name
  match readOptions known [("help", .help)] (rest.length + 1) {} rest with
  | .notice notice => some (ofNotice notice)
  | .options options [] =>
    (command? name options).map (.run (options.settings <|> settings))
  | _ => none

/-- The request for help with the commands of these names. -/
def helpOn? : List String → Option Invocation
  | [] => some .help
  | [name] => if name = "help" || (optionsOf? name).isSome then some .help else none
  | _ => none

/-- The command line as a request. -/
def ofArguments? (arguments : List String) : Option Invocation :=
  match readOptions sharedOptions [("help", .help), ("version", .version)]
      (arguments.length + 1) {} arguments with
  | .notice notice => some (ofNotice notice)
  | .options options (name :: rest) =>
    if name = "help" then helpOn? rest else ofCommand? options.settings name rest
  | _ => none

end Invocation

end ViewCompiler
