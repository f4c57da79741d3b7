import ViewCompiler.Json.Record
import ViewCompiler.Text.Basic

/-!
# Data types

* `DataType`: the logical type of a field.
* `DataType.ofName`: the type with a given name; an unknown name gives `unknown`.
* `DataType.ofBackend`: the type for a column type as a backend names it.
-/

namespace ViewCompiler

/-- The logical type of a field. -/
inductive DataType where
  | boolean
  | byte
  | short
  | integer
  | long
  | float
  | double
  | decimal
  | keyword
  | text
  | string
  | date
  | datetime
  | timestamp
  | time
  | ip
  | point
  | shape
  | json
  | binary
  | unknown
  deriving DecidableEq, Repr, Inhabited

namespace DataType

/-- Every type but `unknown`. -/
def known : List DataType :=
  [boolean, byte, short, integer, long, float, double, decimal, keyword, text, string, date,
    datetime, timestamp, time, ip, point, shape, json, binary]

/-- The name of a type. -/
def name : DataType → String
  | boolean => "boolean"
  | byte => "byte"
  | short => "short"
  | integer => "integer"
  | long => "long"
  | float => "float"
  | double => "double"
  | decimal => "decimal"
  | keyword => "keyword"
  | text => "text"
  | string => "string"
  | date => "date"
  | datetime => "datetime"
  | timestamp => "timestamp"
  | time => "time"
  | ip => "ip"
  | point => "point"
  | shape => "shape"
  | json => "json"
  | binary => "binary"
  | unknown => "unknown"

/-- The type with a name; an unknown name gives `unknown`. -/
def ofName (text : String) : DataType := (known.find? fun type => type.name = text).getD unknown

/-- The column types of the backends and the types they stand for. -/
def backendNames : List (DataType × List String) :=
  [(boolean, ["boolean", "bool"]),
    (byte, ["tinyint", "byte"]),
    (short, ["smallint", "short"]),
    (integer, ["integer", "int"]),
    (long, ["bigint", "long"]),
    (float, ["real", "float"]),
    (double, ["double"]),
    (decimal, ["decimal", "numeric"]),
    (keyword, ["keyword"]),
    (text, ["text"]),
    (string, ["varchar", "char", "string"]),
    (date, ["date"]),
    (datetime, ["datetime"]),
    (timestamp, ["timestamp", "timestamp with time zone"]),
    (time, ["time"]),
    (ip, ["ip", "ipaddress"]),
    (json, ["json"]),
    (binary, ["binary", "varbinary"])]

/-- The type for a column type of a backend: case, surrounding blanks and a parenthesised
argument do not matter. -/
def ofBackend (typeName : String) : DataType :=
  let lower := (Text.trim typeName.toList).map Text.asciiLower
  let base := String.ofList (Text.trim (lower.takeWhile (· ≠ '(')))
  ((backendNames.find? fun entry => entry.2.contains base).map Prod.fst).getD unknown

/-- Is a value of the type a string? -/
def isString (type : DataType) : Bool := type = keyword || type = text || type = string

/-- Is the type analysed text? -/
def isText (type : DataType) : Bool := type = text

/-- Is the type binary? -/
def isBinary (type : DataType) : Bool := type = binary

/-- The type as a value. -/
def encode (type : DataType) : Json := .string type.name

/-- A type from its name. -/
def decode (value : Json) : Option DataType := value.tag?.map ofName

end DataType

end ViewCompiler
