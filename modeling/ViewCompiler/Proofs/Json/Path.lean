import ViewCompiler.Json.Basic
import ViewCompiler.Proofs.KeyMap

/-!
# Values at paths

A path is a list of names. It leads through the members of objects and stops at every other value,
arrays included.

* `Json.at?`: the value that a path leads to.
* `Json.at?_append`: a path is followed part by part.
* `Json.at?_insert`: what a path leads to after a member has been set.
* `Json.InOrder`: the objects that paths lead to have their members in key order.
* `Json.InOrder.ext`: **values in key order are the same if every path leads to the same in both**,
  where of an object only that it is one has to be compared.
-/

namespace ViewCompiler

namespace Json

variable {value found : Json} {members : KeyMap Json} {name : String} {path above rest : List String}

/-- The value that a path leads to through the members of objects. -/
def at? (value : Json) : List String → Option Json
  | [] => some value
  | name :: rest => (value.member? name).bind fun member => member.at? rest

@[simp] theorem at?_nil (value : Json) : value.at? [] = some value := rfl

@[simp] theorem at?_object_cons (members : KeyMap Json) (name : String) (rest : List String) :
    (object members).at? (name :: rest) = (members.get? name).bind fun member => member.at? rest :=
  rfl

theorem at?_append (value : Json) (above rest : List String) :
    value.at? (above ++ rest) = (value.at? above).bind fun found => found.at? rest := by
  induction above generalizing value with
  | nil => rfl
  | cons name above ih =>
    rw [List.cons_append, at?, at?]
    cases value.member? name with
    | none => rfl
    | some member => exact ih member

theorem at?_append_of_at? (h : value.at? above = some found) (rest : List String) :
    value.at? (above ++ rest) = found.at? rest := by
  rw [at?_append, h, Option.bind_some]

theorem member?_eq_none (h : value.members? = none) (name : String) : value.member? name = none := by
  rw [member?, h, Option.bind_none]

theorem at?_eq_none (h : value.members? = none) (hpath : path ≠ []) : value.at? path = none := by
  cases path with
  | nil => exact absurd rfl hpath
  | cons name rest => rw [at?, member?_eq_none h, Option.bind_none]

theorem eq_object_of_members? (h : value.members? = some members) : value = object members := by
  cases value with
  | object => exact congrArg object (Option.some.inj h)
  | _ => cases h

theorem exists_members_iff : (∃ members, value = object members) ↔ value.members? ≠ none := by
  cases value <;> simp [members?]

theorem exists_members_of_at? (h : value.at? path ≠ none) (hpath : path ≠ []) :
    ∃ members, value = object members := by
  rw [exists_members_iff]
  intro hnone
  exact h (at?_eq_none hnone hpath)

/-- What stands on a path that leads to something is an object. -/
theorem exists_object_above (h : value.at? path ≠ none) (habove : above <+: path)
    (hne : above ≠ path) : ∃ members, value.at? above = some (object members) := by
  obtain ⟨rest, rfl⟩ := habove
  have hrest : rest ≠ [] := by
    rintro rfl
    exact hne (List.append_nil above).symm
  rw [at?_append] at h
  cases hfound : value.at? above with
  | none => exact absurd (by rw [hfound]; rfl) h
  | some found =>
    rw [hfound, Option.bind_some] at h
    obtain ⟨members, rfl⟩ := exists_members_of_at? h hrest
    exact ⟨members, rfl⟩

/-- What a path leads to after a member has been set. -/
theorem at?_insert (members : KeyMap Json) (name : String) (value : Json) (other : String)
    (rest : List String) :
    (object (members.insert name value)).at? (other :: rest) =
      if name = other then value.at? rest else (object members).at? (other :: rest) := by
  rw [at?_object_cons, KeyMap.get?_insert]
  split <;> rfl

/-! ### Values in key order -/

/-- The objects that paths lead to have their members in key order. -/
inductive InOrder : Json → Prop
  | object {members : KeyMap Json} (hordered : KeyMap.Ordered members)
      (hmembers : ∀ entry ∈ members, InOrder entry.2) : InOrder (object members)
  | other {value : Json} (h : value.members? = none) : InOrder value

theorem inOrder_empty : InOrder (object []) :=
  .object KeyMap.ordered_nil fun _ hentry => absurd hentry List.not_mem_nil

theorem InOrder.ordered (h : InOrder (Json.object members)) : KeyMap.Ordered members := by
  cases h with
  | object hordered => exact hordered
  | other hnone => cases hnone

theorem InOrder.of_mem (h : InOrder (Json.object members)) {entry : String × Json}
    (hentry : entry ∈ members) : InOrder entry.2 := by
  cases h with
  | object _ hmembers => exact hmembers entry hentry
  | other hnone => cases hnone

theorem InOrder.tail {entry : String × Json} {rest : KeyMap Json}
    (h : InOrder (Json.object (entry :: rest))) : InOrder (Json.object rest) :=
  .object (List.pairwise_cons.1 h.ordered).2 fun _ hother => h.of_mem (List.mem_cons_of_mem _ hother)

theorem InOrder.of_get? (h : InOrder (Json.object members)) (hget : members.get? name = some found) :
    InOrder found :=
  h.of_mem (KeyMap.mem_of_get? hget)

theorem InOrder.of_at? (h : InOrder value) (hat : value.at? path = some found) : InOrder found := by
  induction path generalizing value with
  | nil => exact Option.some.inj hat ▸ h
  | cons name rest ih =>
    obtain ⟨members, rfl⟩ :=
      exists_members_of_at? (hat ▸ Option.some_ne_none found) (List.cons_ne_nil name rest)
    obtain ⟨member, hget, hrest⟩ := Option.bind_eq_some_iff.1 hat
    exact ih (h.of_get? hget) hrest

theorem InOrder.insert (h : InOrder (Json.object members)) (hvalue : InOrder value) (name : String) :
    InOrder (Json.object (members.insert name value)) := by
  refine .object (h.ordered.insert name value) fun entry hentry => ?_
  rcases KeyMap.mem_insert hentry with rfl | hold
  · exact hvalue
  · exact h.of_mem hold

/-- The value without the members that it has as an object. -/
def outline : Json → Json
  | .object _ => .object []
  | value => value

theorem outline_eq_object_iff : value.outline = object [] ↔ ∃ members, value = object members := by
  cases value <;> simp [outline]

theorem outline_of_members? (h : value.members? = none) : value.outline = value := by
  cases value with
  | object => cases h
  | _ => rfl

/-- **Values in key order are the same if every path leads to the same in both.** -/
theorem InOrder.ext {value other : Json} (hvalue : InOrder value) (hother : InOrder other)
    (h : ∀ path, (value.at? path).map outline = (other.at? path).map outline) : value = other := by
  induction hvalue generalizing other with
  | @other value hnone =>
    have houtline : value.outline = other.outline := Option.some.inj (h [])
    rw [outline_of_members? hnone] at houtline
    cases hmembers : other.members? with
    | none => rw [houtline, outline_of_members? hmembers]
    | some members =>
      rw [eq_object_of_members? hmembers] at houtline
      rw [houtline] at hnone
      cases hnone
  | @object members hordered hmembers ih =>
    obtain ⟨members', rfl⟩ := outline_eq_object_iff.1 (Option.some.inj (h [])).symm
    refine congrArg Json.object (hordered.ext hother.ordered fun key => ?_)
    -- below each key the paths lead to the same, so that the members under it are the same
    have hbelow (rest : List String) :
        ((members.get? key).bind fun member => member.at? rest).map outline =
          ((KeyMap.get? members' key).bind fun member => member.at? rest).map outline := h (key :: rest)
    cases hget : members.get? key with
    | none =>
      have hhere := hbelow []
      rw [hget] at hhere
      cases hget' : KeyMap.get? members' key with
      | none => rfl
      | some member' =>
        rw [hget'] at hhere
        exact absurd hhere.symm (Option.some_ne_none _)
    | some member =>
      cases hget' : KeyMap.get? members' key with
      | none =>
        have hhere := hbelow []
        rw [hget, hget'] at hhere
        exact absurd hhere (Option.some_ne_none _)
      | some member' =>
        refine congrArg some (ih _ (KeyMap.mem_of_get? hget) (hother.of_get? hget') fun rest => ?_)
        have hrest := hbelow rest
        rwa [hget, hget', Option.bind_some, Option.bind_some] at hrest

end Json

end ViewCompiler
