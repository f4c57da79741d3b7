import ViewCompiler.Decimal.Binary64
import ViewCompiler.KeyMap

/-!
# JSON values

* `Json.Number`: integers and doubles are told apart, so that `1` and `1.0` are different values.
* `Json`: a value; the members of an object stand in key order.
* `Json.member?`, `Json.items?` and their neighbours read a value as one of its forms.
-/

namespace ViewCompiler

/-- A JSON number: an integer between `-2 ^ 63` and `2 ^ 64 - 1`, or a finite double. -/
inductive Json.Number where
  | int (value : Int)
  | float (value : Binary64)
  deriving DecidableEq, Inhabited

/-- A JSON value. -/
inductive Json where
  | null
  | bool (value : Bool)
  | number (value : Json.Number)
  | string (value : String)
  | array (items : List Json)
  | object (members : List (String × Json))
  deriving Inhabited

namespace Json

/-- The object with the given members, put in key order; the last value of a key wins. -/
def ofMembers (members : List (String × Json)) : Json := .object (KeyMap.ofList members)

/-- The integer as a value. -/
def int (n : Int) : Json := .number (.int n)

/-- The natural number as a value. -/
def nat (n : Nat) : Json := .number (.int n)

/-- The list of texts as a value. -/
def strings (texts : List String) : Json := .array (texts.map .string)

/-- The value, or `null` if there is none. -/
def ofOption {α : Type} (encode : α → Json) : Option α → Json
  | none => .null
  | some a => encode a

/-- Is the value `null`? -/
def isNull : Json → Bool
  | .null => true
  | _ => false

/-- Is the value an array or an object? -/
def isContainer : Json → Bool
  | .array _ => true
  | .object _ => true
  | _ => false

/-- The text of a string. -/
def string? : Json → Option String
  | .string s => some s
  | _ => none

/-- The truth value of a boolean. -/
def bool? : Json → Option Bool
  | .bool b => some b
  | _ => none

/-- The number, if the value is one. -/
def number? : Json → Option Number
  | .number n => some n
  | _ => none

/-- The items of an array. -/
def items? : Json → Option (List Json)
  | .array items => some items
  | _ => none

/-- The members of an object. -/
def members? : Json → Option (KeyMap Json)
  | .object members => some members
  | _ => none

/-- An integer of `0` to `2 ^ 64 - 1`. -/
def nat? : Json → Option Nat
  | .number (.int n) => if 0 ≤ n && n < Nat.pow 2 64 then some n.toNat else none
  | _ => none

/-- An integer of `-2 ^ 63` to `2 ^ 63 - 1`. -/
def int? : Json → Option Int
  | .number (.int n) => if -Nat.pow 2 63 ≤ n && n < Nat.pow 2 63 then some n else none
  | _ => none

/-- A number of either form as a double. -/
def double? : Json → Option Binary64
  | .number (.int n) => Binary64.ofNat? (n < 0) n.natAbs
  | .number (.float x) => some x
  | _ => none

/-- The member of an object with the given key. -/
def member? (value : Json) (key : String) : Option Json :=
  value.members?.bind (KeyMap.get? · key)

end Json

end ViewCompiler
