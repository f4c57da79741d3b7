import ViewCompiler.Json.Written

/-!
# Reading texts by schema

Where only some members of an object are kept, the others may hold anything: their values are
neither limited in depth nor need their tokens stand for values. A kept member may be written
once only, whichever of its names is used.

* `Json.Form`: what is kept of a part of a text; forms refer to each other by a type `κ` of kinds,
  so that a schema can be recursive.
* `Json.Written.read?`: the kept part of a tree as a value. A record may also be written as the
  array of its members in their order.
* `Json.parseAs?`: the kept part of a whole text.
-/

namespace ViewCompiler

namespace Json

/-- A member that is kept. -/
structure Slot (κ : Type) where
  /-- The name under which it is kept. -/
  name : String
  /-- The kind of its value. -/
  kind : κ
  /-- Other names under which it may be written. -/
  aliases : List String := []

/-- What is kept of a part of a text. -/
inductive Form (κ : Type) where
  /-- Everything. -/
  | free
  /-- Everything, but a member with this name may be written once only. -/
  | tagged (name : String)
  /-- Some members of an object. -/
  | record (slots : List (Slot κ))
  /-- A list whose items are of one kind. -/
  | list (item : κ)

/-- The slot that a written name belongs to. -/
def slotFor? {κ : Type} (slots : List (Slot κ)) (name : String) : Option (Slot κ) :=
  slots.find? fun slot => slot.name = name || slot.aliases.contains name

namespace Written

/-- Are the texts pairwise distinct? -/
def allDistinct : List String → Bool
  | [] => true
  | x :: xs => !xs.contains x && allDistinct xs

variable {κ : Type}

mutual

/-- The kept part of a tree of the given kind, with at most `depth` nested containers. -/
def read? (schema : κ → Form κ) (kind : κ) (depth : Nat) : Written → Option Json
  | .null => some .null
  | .bool b => some (.bool b)
  | .number n => n.map .number
  | .string s => s.map .string
  | .array items =>
    if depth = 0 then none
    else match schema kind with
      | .list item => (readItems? schema item (depth - 1) items).map .array
      | .record slots => (readSlots? schema slots (depth - 1) items).map .array
      | _ => (itemValues? (depth - 1) items).map .array
  | .object members =>
    if depth = 0 then none
    else match schema kind with
      | .record slots => do
        let kept ← readMembers? schema slots (depth - 1) members
        if allDistinct (kept.map Prod.fst) then return .ofMembers kept else none
      | .tagged name =>
        if (members.filter fun member => member.1 = some name).length ≤ 1 then
          (memberValues? (depth - 1) members).map .ofMembers
        else none
      | _ => (memberValues? (depth - 1) members).map .ofMembers

/-- The items of a list. -/
def readItems? (schema : κ → Form κ) (kind : κ) (depth : Nat) : List Written → Option (List Json)
  | [] => some []
  | item :: rest => do
    let item ← read? schema kind depth item
    let rest ← readItems? schema kind depth rest
    return item :: rest

/-- The members of a record written as an array. -/
def readSlots? (schema : κ → Form κ) (slots : List (Slot κ)) (depth : Nat) :
    List Written → Option (List Json)
  | [] => some []
  | item :: rest =>
    match slots with
    | [] => none
    | slot :: slots => do
      let item ← read? schema slot.kind depth item
      let rest ← readSlots? schema slots depth rest
      return item :: rest

/-- The kept members of a record, under the names by which they are kept. -/
def readMembers? (schema : κ → Form κ) (slots : List (Slot κ)) (depth : Nat) :
    List (Option String × Written) → Option (List (String × Json))
  | [] => some []
  | (key, value) :: rest => do
    let key ← key
    match slotFor? slots key with
    | none => readMembers? schema slots depth rest
    | some slot =>
      let value ← read? schema slot.kind depth value
      let rest ← readMembers? schema slots depth rest
      return (slot.name, value) :: rest

end

end Written

/-- The kept part of a text. -/
def parseAs? {κ : Type} (schema : κ → Form κ) (kind : κ) (text : String) : Option Json :=
  (Written.parse? text).bind (Written.read? schema kind Written.maxDepth)

end Json

end ViewCompiler
