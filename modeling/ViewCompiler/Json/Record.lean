import ViewCompiler.Json.Basic

/-!
# Reading values as records

A record is an object whose members have fixed names; unknown members are passed over. It may
also be given as the array of its members in their order, down to the last one that must be
there.

* `Json.record?` reads either shape as a map of members.
* `Json.required?`, `Json.optional?`, `Json.orElse?` read one member: it must be there; it may be
  missing or `null`; it has a default and must not be `null`.
-/

namespace ViewCompiler

namespace Json

/-- The members of a record with these names, of which an array must give the first `needed`. -/
def record? (names : List String) (needed : Nat) : Json → Option (KeyMap Json)
  | .object members => some members
  | .array items =>
    if needed ≤ items.length && items.length ≤ names.length then
      some (KeyMap.ofList (names.zip items))
    else none
  | _ => none

/-- A member that must be there. -/
def required? {α : Type} (members : KeyMap Json) (name : String) (decode : Json → Option α) :
    Option α :=
  (members.get? name).bind decode

/-- A member that may be missing or `null`. -/
def optional? {α : Type} (members : KeyMap Json) (name : String) (decode : Json → Option α) :
    Option (Option α) :=
  match members.get? name with
  | none => some none
  | some .null => some none
  | some value => (decode value).map some

/-- A member with a default, which must not be `null`. -/
def orElse? {α : Type} (members : KeyMap Json) (name : String) (default : α)
    (decode : Json → Option α) : Option α :=
  match members.get? name with
  | none => some default
  | some value => decode value

/-- A list whose items all decode. -/
def list? {α : Type} (decode : Json → Option α) (value : Json) : Option (List α) :=
  value.items?.bind (·.mapM decode)

/-- A text that stands for one of the constants of an enumeration; the object whose only member
has that name and the value `null` stands for it too. -/
def tag? : Json → Option String
  | .string s => some s
  | .object [(name, .null)] => some name
  | _ => none

/-- A list of texts. -/
def strings? (value : Json) : Option (List String) := list? string? value

/-- The object with these members, without those that have no value. -/
def ofOptionalMembers (members : List (String × Option Json)) : Json :=
  .ofMembers (members.filterMap fun member => member.2.map fun value => (member.1, value))

end Json

end ViewCompiler
