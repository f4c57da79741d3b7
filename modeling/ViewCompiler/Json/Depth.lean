import ViewCompiler.Json.Basic

/-!
# Nesting of values

`Json.depth` counts the containers around the innermost part of a value.
-/

namespace ViewCompiler

namespace Json

mutual

/-- The number of nested containers. -/
def depth : Json → Nat
  | .array items => itemsDepth items + 1
  | .object members => membersDepth members + 1
  | _ => 0

/-- The greatest depth of the items. -/
def itemsDepth : List Json → Nat
  | [] => 0
  | item :: rest => max (depth item) (itemsDepth rest)

/-- The greatest depth of the values. -/
def membersDepth : List (String × Json) → Nat
  | [] => 0
  | (_, value) :: rest => max (depth value) (membersDepth rest)

end

end Json

end ViewCompiler
