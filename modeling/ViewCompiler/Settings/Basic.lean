import ViewCompiler.Json.Record
import ViewCompiler.Settings.Duration

/-!
# Settings

* `QuerySettings`: limits and defaults of queries.
* `Settings`: all settings of a program that answers queries.
* `QuerySettings.check`: are the limits and durations usable?
-/

namespace ViewCompiler

/-- Limits and defaults of queries. -/
structure QuerySettings where
  /-- The rows of a page when a query does not say. -/
  defaultLimit : Nat := 10
  /-- The rows of a page after the first when a query that pages by cursor does not say. -/
  cursorLimit : Nat := 10000
  /-- The largest number of nodes of a scope. -/
  maxNodes : Nat := 20
  /-- The largest number of filters that `and` or `or` joins. -/
  maxChildren : Nat := 10
  /-- How long a point in time or a scroll is kept when a query does not say. -/
  keepAlive : String := "1m"
  /-- How long an SQL statement may run. -/
  sqlTimeout : String := "60s"
  deriving DecidableEq, Repr, Inhabited

namespace QuerySettings

/-- How long an SQL statement may run. -/
def timeout (settings : QuerySettings) : Except SettingsError Duration :=
  Duration.ofText settings.sqlTimeout

/-- Are the limits positive and the durations readable? -/
def check (settings : QuerySettings) : Except SettingsError Unit := do
  if settings.maxNodes = 0 then throw (.invalid "query.max_scope_nodes must be positive")
  if settings.cursorLimit = 0 then throw (.invalid "query.search_after_limit must be positive")
  let _ ← Duration.ofText settings.keepAlive
  let _ ← settings.timeout

/-- The members of the settings, in their order. -/
def memberNames : List String :=
  ["default_limit", "search_after_limit", "max_scope_nodes", "max_sub_conditions",
    "default_pit_keep_alive", "sql_timeout"]

/-- The settings as a value. -/
def encode (settings : QuerySettings) : Json :=
  .ofMembers
    [("default_limit", .nat settings.defaultLimit),
      ("search_after_limit", .nat settings.cursorLimit),
      ("max_scope_nodes", .nat settings.maxNodes),
      ("max_sub_conditions", .nat settings.maxChildren),
      ("default_pit_keep_alive", .string settings.keepAlive),
      ("sql_timeout", .string settings.sqlTimeout)]

/-- Settings from a value; every part has a default. -/
def decode (value : Json) : Option QuerySettings := do
  let members ← value.record? memberNames 0
  let usual : QuerySettings := {}
  return {
    defaultLimit := ← Json.orElse? members "default_limit" usual.defaultLimit Json.nat?
    cursorLimit := ← Json.orElse? members "search_after_limit" usual.cursorLimit Json.nat?
    maxNodes := ← Json.orElse? members "max_scope_nodes" usual.maxNodes Json.nat?
    maxChildren := ← Json.orElse? members "max_sub_conditions" usual.maxChildren Json.nat?
    keepAlive := ← Json.orElse? members "default_pit_keep_alive" usual.keepAlive Json.string?
    sqlTimeout := ← Json.orElse? members "sql_timeout" usual.sqlTimeout Json.string? }

end QuerySettings

/-- All settings. -/
structure Settings where
  /-- The number of workers that shape rows; zero for one for each processor. -/
  poolSize : Nat := 0
  query : QuerySettings := {}
  /-- Which messages are logged. -/
  logFilter : String := "info"
  deriving DecidableEq, Repr, Inhabited

namespace Settings

/-- The settings as a value. -/
def encode (settings : Settings) : Json :=
  .ofMembers
    [("pool", .ofMembers [("size", .nat settings.poolSize)]),
      ("query", settings.query.encode),
      ("logging", .ofMembers [("filter", .string settings.logFilter)])]

/-- The size of the pool from a value. -/
def decodePool (value : Json) : Option Nat := do
  Json.orElse? (← value.record? ["size"] 0) "size" 0 Json.nat?

/-- The log filter from a value. -/
def decodeLogging (value : Json) : Option String := do
  Json.orElse? (← value.record? ["filter"] 0) "filter" ({} : Settings).logFilter Json.string?

/-- Settings from a value; every part has a default. -/
def decode (value : Json) : Option Settings := do
  let members ← value.record? ["pool", "query", "logging"] 0
  return {
    poolSize := ← Json.orElse? members "pool" 0 decodePool
    query := ← Json.orElse? members "query" {} QuerySettings.decode
    logFilter := ← Json.orElse? members "logging" ({} : Settings).logFilter decodeLogging }

end Settings

end ViewCompiler
