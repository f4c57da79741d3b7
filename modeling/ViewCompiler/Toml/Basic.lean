import ViewCompiler.Json.Basic

/-!
# TOML documents

A document is a tree of tables. How a table came about decides whether later lines may add to it.

* `Toml`: a value of a document.
* `Toml.openTable`, `Toml.openItem`: the effect of a table header.
* `Toml.assign`: the effect of a key with a value, where the key may have several parts.
* `Toml.toJson`: the value without the history of its tables.
-/

namespace ViewCompiler

/-- How a table came about. -/
inductive Toml.Origin where
  /-- By a header of its own. -/
  | header
  /-- As a part of the header of another table. -/
  | implied
  /-- As a part of a key. -/
  | dotted
  /-- Between braces. -/
  | braced
  deriving DecidableEq, Repr, Inhabited

/-- A value of a document. -/
inductive Toml where
  | string (text : String)
  | integer (value : Int)
  | float
  | boolean (value : Bool)
  | moment
  | array (items : List Toml)
  | table (origin : Toml.Origin) (entries : List (String × Toml))
  /-- The tables under a header that may be repeated, the last one first. -/
  | tables (items : List (List (String × Toml)))
  deriving Inhabited

namespace Toml

/-- The entries of a table. -/
abbrev Entries := List (String × Toml)

/-- The value of a key. -/
def get? (entries : Entries) (key : String) : Option Toml :=
  (entries.find? fun entry => entry.1 = key).map Prod.snd

/-- Set the value of a key, at its place if it has one. -/
def set (entries : Entries) (key : String) (value : Toml) : Entries :=
  if (get? entries key).isSome then
    entries.map fun entry => if entry.1 = key then (key, value) else entry
  else entries ++ [(key, value)]

/-- Go down the keys of a header and change the value of the last one. -/
def descend (change : Option Toml → Option Toml) : List String → Entries → Option Entries
  | [], _ => none
  | [key], entries => (change (get? entries key)).map (set entries key)
  | key :: rest, entries =>
    match get? entries key with
    | none => (descend change rest []).map fun inner => set entries key (.table .implied inner)
    | some (.table .braced _) => none
    | some (.table origin inner) =>
      (descend change rest inner).map fun inner => set entries key (.table origin inner)
    | some (.tables (last :: before)) =>
      (descend change rest last).map fun last => set entries key (.tables (last :: before))
    | some _ => none

/-- The header of a table, which must not have been one before. -/
def openTable (path : List String) (entries : Entries) : Option Entries :=
  descend (fun found => match found with
    | none => some (.table .header [])
    | some (.table .implied inner) => some (.table .header inner)
    | some _ => none) path entries

/-- The header of one more table of a list. -/
def openItem (path : List String) (entries : Entries) : Option Entries :=
  descend (fun found => match found with
    | none => some (.tables [[]])
    | some (.tables items) => some (.tables ([] :: items))
    | some _ => none) path entries

/-- Set the value of a key with several parts, whose last table must have come about by keys. -/
def assign (value : Toml) : List String → Entries → Option Entries
  | [], _ => none
  | [key], entries => if (get? entries key).isSome then none else some (set entries key value)
  | key :: rest, entries =>
    match get? entries key with
    | none => (assign value rest []).map fun inner => set entries key (.table .dotted inner)
    | some (.table .dotted inner) =>
      (assign value rest inner).map fun inner => set entries key (.table .dotted inner)
    | some (.table .implied inner) =>
      if rest.length = 1 then none
      else (assign value rest inner).map fun inner => set entries key (.table .implied inner)
    | some _ => none

/-- Change the entries of the table under a header. -/
def within (change : Entries → Option Entries) : List String → Entries → Option Entries
  | [], entries => change entries
  | key :: rest, entries =>
    match get? entries key with
    | some (.table origin inner) =>
      (within change rest inner).map fun inner => set entries key (.table origin inner)
    | some (.tables (last :: before)) =>
      (within change rest last).map fun last => set entries key (.tables (last :: before))
    | _ => none

mutual

/-- The value without the history of its tables. A float stands for every float, and a moment is an
object that says no more. -/
def toJson : Toml → Json
  | .string text => .string text
  | .integer value => .number (.int value)
  | .float => .number (.float .zero)
  | .boolean value => .bool value
  | .moment => .object [("moment", .null)]
  | .array items => .array (allToJson items)
  | .table _ entries => .ofMembers (entriesToJson entries)
  | .tables items => .array (tablesToJson items).reverse

/-- The values without the history of their tables. -/
def allToJson : List Toml → List Json
  | [] => []
  | item :: rest => item.toJson :: allToJson rest

/-- The entries without the history of their tables. -/
def entriesToJson : List (String × Toml) → List (String × Json)
  | [] => []
  | (key, value) :: rest => (key, value.toJson) :: entriesToJson rest

/-- The tables without their history. -/
def tablesToJson : List (List (String × Toml)) → List Json
  | [] => []
  | entries :: rest => .ofMembers (entriesToJson entries) :: tablesToJson rest

end

end Toml

end ViewCompiler
