import ViewCompiler.Page.Document
import ViewCompiler.Proofs.Json.Path

/-!
# What a path reads

A field reads what its path reaches in a document, through the arrays on the way.

* `Json.elements`: a value that is no array and not `null`, or those in an array, at any depth.
* `Json.reached`: the elements at the end of a path, when each step is taken from every element.
* `Json.MeetsArray`: an array stands on the path or at its end.
* `Row.values_found`, `Row.many_found`: **the values that are found are those that are reached, and
  they are many if an array is met.**
* `Row.read?_eq_at?`, `Row.read?_eq_array`: a field reads the value at its path, or the array of
  what is reached if an array is met.
* `Json.ReadAsIs`, `Row.at?_eq_read?_iff`: when it reads what stands at its path, although an array
  may be met.
-/

namespace ViewCompiler

namespace Json

variable {value found : Json} {members : KeyMap Json} {items : List Json} {name : String}
  {path rest : List String}

mutual

/-- The value itself, or the elements of the items of an array; `null` is no element. -/
def elements : Json → List Json
  | .null => []
  | .array items => elementsOf items
  | value => [value]

/-- The elements of the items of an array. -/
def elementsOf : List Json → List Json
  | [] => []
  | item :: rest => item.elements ++ elementsOf rest

end

/-- The elements at the end of a path, in the order of the document. -/
def reached (value : Json) : List String → List Json
  | [] => value.elements
  | name :: rest => value.elements.flatMap fun element =>
      (element.member? name).elim [] fun member => member.reached rest

/-- An array stands on the path or at its end. -/
def MeetsArray (value : Json) (path : List String) : Prop :=
  ∃ above items, above <+: path ∧ value.at? above = some (array items)

theorem elementsOf_eq_flatMap (items : List Json) : elementsOf items = items.flatMap elements := by
  induction items with
  | nil => rfl
  | cons item rest ih => rw [elementsOf, ih, List.flatMap_cons]

theorem reached_array (items : List Json) (path : List String) :
    (array items).reached path = items.flatMap fun item => item.reached path := by
  cases path with
  | nil => exact elementsOf_eq_flatMap items
  | cons name rest =>
    rw [reached, elements, elementsOf_eq_flatMap, List.flatMap_assoc]
    rfl

theorem reached_object_cons (members : KeyMap Json) (name : String) (rest : List String) :
    (object members).reached (name :: rest) =
      (members.get? name).elim [] fun member => member.reached rest := by
  rw [reached, elements, List.flatMap_singleton]
  · rfl
  · simp
  · simp

theorem meetsArray_array (items : List Json) (path : List String) : (array items).MeetsArray path :=
  ⟨[], items, List.nil_prefix, rfl⟩

theorem not_meetsArray_of_isContainer (h : value.isContainer = false) : ¬value.MeetsArray path := by
  rintro ⟨above, items, -, hat⟩
  by_cases habove : above = []
  · subst habove
    obtain rfl := Option.some.inj hat
    cases h
  · obtain ⟨members, rfl⟩ := exists_members_of_at? (hat ▸ Option.some_ne_none _) habove
    cases h

theorem not_meetsArray_object_nil (members : KeyMap Json) : ¬(object members).MeetsArray [] := by
  rintro ⟨above, items, hprefix, hat⟩
  obtain rfl := List.prefix_nil.1 hprefix
  cases Option.some.inj hat

theorem not_meetsArray_of_at? (hat : value.at? path = some found) (h : found.items? = none) :
    ¬value.MeetsArray path := by
  rintro ⟨above, items, hle, harray⟩
  by_cases hne : above = path
  · subst hne
    obtain rfl := Option.some.inj (harray.symm.trans hat)
    cases h
  · obtain ⟨members, hobject⟩ := exists_object_above (hat ▸ Option.some_ne_none found) hle hne
    cases Option.some.inj (harray.symm.trans hobject)

theorem meetsArray_object_cons :
    (object members).MeetsArray (name :: rest) ↔
      ∃ member, members.get? name = some member ∧ member.MeetsArray rest := by
  constructor
  · rintro ⟨above, items, hprefix, hat⟩
    cases above with
    | nil => cases Option.some.inj hat
    | cons first above =>
      obtain ⟨rfl, hbelow⟩ := List.cons_prefix_cons.1 hprefix
      obtain ⟨member, hget, hmember⟩ := Option.bind_eq_some_iff.1 hat
      exact ⟨member, hget, above, items, hbelow, hmember⟩
  · rintro ⟨member, hget, above, items, hprefix, hat⟩
    refine ⟨name :: above, items, List.cons_prefix_cons.2 ⟨rfl, hprefix⟩, ?_⟩
    rw [at?_object_cons, hget]
    exact hat

theorem reached_append_eq_nil (h : value.reached path = []) (rest : List String) :
    value.reached (path ++ rest) = [] := by
  induction path generalizing value with
  | nil =>
    rw [reached] at h
    cases rest with
    | nil => exact h
    | cons name rest => rw [List.nil_append, reached, h, List.flatMap_nil]
  | cons name path ih =>
    rw [reached, List.flatMap_eq_nil_iff] at h
    rw [List.cons_append, reached, List.flatMap_eq_nil_iff]
    intro element helement
    have hnothing := h element helement
    cases hmember : element.member? name with
    | none => rfl
    | some member =>
      rw [hmember] at hnothing
      exact ih hnothing

theorem reached_of_not_meetsArray (h : ¬value.MeetsArray path) :
    value.reached path = ((value.at? path).filter fun found => !found.isNull).toList := by
  induction path generalizing value with
  | nil =>
    cases value with
    | array items => exact absurd (meetsArray_array items []) h
    | _ => rfl
  | cons name rest ih =>
    cases value with
    | array items => exact absurd (meetsArray_array items _) h
    | object members =>
      rw [reached_object_cons, at?_object_cons]
      cases hget : KeyMap.get? members name with
      | none => rfl
      | some member =>
        exact ih fun hmeets => h (meetsArray_object_cons.2 ⟨member, hget, hmeets⟩)
    | _ => rfl

/-! ### What is read as it stands -/

/-- If an array stands on the path, it stands at the end, and its items are elements. -/
def ReadAsIs (value : Json) (path : List String) : Prop :=
  ∀ above items, above <+: path → value.at? above = some (array items) →
    above = path ∧ ∀ item ∈ items, item.isNull = false ∧ item.items? = none

theorem elements_eq_singleton (hnull : value.isNull = false) (hitems : value.items? = none) :
    value.elements = [value] := by
  cases value with
  | null => cases hnull
  | array => cases hitems
  | _ => rfl

mutual

theorem element_of_mem_elements (value : Json) {element : Json} (h : element ∈ value.elements) :
    element.isNull = false ∧ element.items? = none := by
  match value with
  | .null => exact absurd h List.not_mem_nil
  | .array items => exact element_of_mem_elementsOf items h
  | .bool _ | .number _ | .string _ | .object _ =>
    obtain rfl := List.mem_singleton.1 h
    exact ⟨rfl, rfl⟩

theorem element_of_mem_elementsOf (items : List Json) {element : Json}
    (h : element ∈ elementsOf items) : element.isNull = false ∧ element.items? = none := by
  match items with
  | [] => exact absurd h List.not_mem_nil
  | item :: rest =>
    rcases List.mem_append.1 h with h | h
    · exact element_of_mem_elements item h
    · exact element_of_mem_elementsOf rest h

end

/-- What is reached is neither `null` nor an array. -/
theorem element_of_mem_reached {element : Json} (h : element ∈ value.reached path) :
    element.isNull = false ∧ element.items? = none := by
  induction path generalizing value with
  | nil => exact element_of_mem_elements value h
  | cons name rest ih =>
    obtain ⟨inner, -, hinner⟩ := List.mem_flatMap.1 h
    cases hmember : inner.member? name with
    | none =>
      rw [hmember] at hinner
      exact absurd hinner List.not_mem_nil
    | some member =>
      rw [hmember] at hinner
      exact ih hinner

theorem reached_of_at? (h : value.at? path = some found) : value.reached path = found.elements := by
  induction path generalizing value with
  | nil => exact congrArg elements (Option.some.inj h)
  | cons name rest ih =>
    obtain ⟨members, rfl⟩ :=
      exists_members_of_at? (h ▸ Option.some_ne_none found) (List.cons_ne_nil name rest)
    obtain ⟨member, hget, hrest⟩ := Option.bind_eq_some_iff.1 h
    rw [reached_object_cons, show KeyMap.get? members name = some member from hget]
    exact ih hrest

theorem elements_array_eq_self_iff :
    (array items).elements = items ↔ ∀ item ∈ items, item.isNull = false ∧ item.items? = none := by
  constructor
  · intro h item hitem
    rw [← h] at hitem
    exact element_of_mem_elements _ hitem
  · intro h
    calc (array items).elements
        = items.flatMap elements := elementsOf_eq_flatMap items
      _ = items.flatMap fun item => [item] :=
          List.flatMap_congr fun item hitem => elements_eq_singleton (h item hitem).1 (h item hitem).2
      _ = items := List.flatMap_singleton' items

end Json

/-! ### What is found -/

namespace Row

open Json (elementsOf)

variable {document : Row} {path : List String}

mutual

theorem values_leaves (value : Json) : (leaves value).values = value.elements := by
  match value with
  | .array items => exact leavesOf_eq items
  | .null | .bool _ | .number _ | .string _ | .object _ => rfl

theorem leavesOf_eq (items : List Json) : leavesOf items = elementsOf items := by
  match items with
  | [] => rfl
  | item :: rest => rw [leavesOf, elementsOf, values_leaves, leavesOf_eq]

end

mutual

theorem values_valuesAt (path : List String) (value : Json) :
    (valuesAt path value).values = value.reached path := by
  match value with
  | .null | .bool _ | .number _ | .string _ => cases path <;> rfl
  | .array items =>
    rw [Json.reached_array]
    cases path with
    | nil => exact (values_leaves (.array items)).trans (Json.elementsOf_eq_flatMap items)
    | cons name rest => exact valuesIn_eq (name :: rest) items
  | .object members =>
    cases path with
    | nil => rfl
    | cons name rest =>
      rw [Json.reached_object_cons]
      exact values_valuesUnder name rest members

theorem valuesIn_eq (path : List String) (items : List Json) :
    valuesIn path items = items.flatMap fun item => item.reached path := by
  match items with
  | [] => rfl
  | item :: rest => rw [valuesIn, List.flatMap_cons, values_valuesAt, valuesIn_eq]

theorem values_valuesUnder (name : String) (path : List String) (members : List (String × Json)) :
    (valuesUnder name path members).values =
      (KeyMap.get? members name).elim [] fun member => member.reached path := by
  match members with
  | [] => rfl
  | (key, member) :: rest =>
    rw [valuesUnder, KeyMap.get?_cons]
    split
    · exact values_valuesAt path member
    · exact values_valuesUnder name path rest

end

mutual

theorem many_valuesAt (path : List String) (value : Json) :
    (valuesAt path value).many = true ↔ value.MeetsArray path := by
  match value with
  | .null | .bool _ | .number _ | .string _ =>
    cases path <;> exact iff_of_false Bool.false_ne_true (Json.not_meetsArray_of_isContainer rfl)
  | .array items =>
    refine iff_of_true ?_ (Json.meetsArray_array items path)
    cases path <;> rfl
  | .object members =>
    cases path with
    | nil => exact iff_of_false Bool.false_ne_true (Json.not_meetsArray_object_nil members)
    | cons name rest =>
      rw [Json.meetsArray_object_cons]
      exact many_valuesUnder name rest members

theorem many_valuesUnder (name : String) (path : List String) (members : List (String × Json)) :
    (valuesUnder name path members).many = true ↔
      ∃ member, KeyMap.get? members name = some member ∧ member.MeetsArray path := by
  match members with
  | [] => simp [valuesUnder, Found.nothing]
  | (key, member) :: rest =>
    rw [valuesUnder, KeyMap.get?_cons]
    split
    · simp [many_valuesAt path member]
    · exact many_valuesUnder name path rest

end

/-- What a path leads to in a document. -/
def found (document : Row) : List String → Found
  | [] => .nothing
  | head :: rest => valuesUnder head rest document

/-- The value that a field with this path reads in a document, if it reads anything. -/
def read? (document : Row) (path : List String) : Option Json :=
  if (document.found path).values.isEmpty then none else some (document.found path).value

/-- **The values that are found are those that are reached.** -/
theorem values_found (document : Row) (hpath : path ≠ []) :
    (document.found path).values = (Json.object document).reached path := by
  cases path with
  | nil => exact absurd rfl hpath
  | cons name rest =>
    rw [Json.reached_object_cons]
    exact values_valuesUnder name rest document

theorem many_found (document : Row) (hpath : path ≠ []) :
    (document.found path).many = true ↔ (Json.object document).MeetsArray path := by
  cases path with
  | nil => exact absurd rfl hpath
  | cons name rest =>
    rw [Json.meetsArray_object_cons]
    exact many_valuesUnder name rest document

theorem Found.value_of_many {found : Found} (h : found.many = true) :
    found.value = .array found.values := by
  rw [Found.value]
  split
  · next value hvalues => rw [if_pos h, hvalues]
  · rfl

theorem Found.value_of_singleton {found : Found} {value : Json} (h : found.many = false)
    (hvalues : found.values = [value]) : found.value = value := by
  rw [Found.value, hvalues]
  exact if_neg (h ▸ Bool.false_ne_true)

theorem read?_eq_none_iff (hpath : path ≠ []) :
    document.read? path = none ↔ (Json.object document).reached path = [] := by
  rw [read?, values_found document hpath, ← List.isEmpty_iff]
  split <;> simp [*]

/-- **A field reads the value at its path** if no array is met. -/
theorem read?_eq_at? (hpath : path ≠ []) (h : ¬(Json.object document).MeetsArray path) :
    document.read? path = ((Json.object document).at? path).filter fun found => !found.isNull := by
  have hmany : (document.found path).many = false := by
    rwa [← Bool.not_eq_true, many_found document hpath]
  have hvalues := values_found document hpath
  rw [Json.reached_of_not_meetsArray h] at hvalues
  rw [read?]
  cases hfilter : ((Json.object document).at? path).filter fun found => !found.isNull with
  | none =>
    rw [hfilter] at hvalues
    rw [hvalues]
    rfl
  | some value =>
    rw [hfilter] at hvalues
    rw [hvalues, Found.value_of_singleton hmany hvalues]
    rfl

/-- **A field reads the array of what is reached** if an array is met. -/
theorem read?_eq_array (hpath : path ≠ []) (h : (Json.object document).MeetsArray path) :
    document.read? path =
      if (Json.object document).reached path = [] then none
      else some (.array ((Json.object document).reached path)) := by
  rw [read?, Found.value_of_many ((many_found document hpath).2 h), values_found document hpath]
  simp only [List.isEmpty_iff]

/-- What a path leads through is read as it stands. -/
theorem read?_of_at?_append (hpath : path ≠ []) {rest : List String} (hrest : rest ≠ [])
    (h : (Json.object document).at? (path ++ rest) ≠ none) :
    document.read? path = (Json.object document).at? path := by
  have hne : path ≠ path ++ rest := fun heq => hrest (List.append_right_eq_self.1 heq.symm)
  obtain ⟨members, hobject⟩ := Json.exists_object_above h (List.prefix_append path rest) hne
  rw [read?_eq_at? hpath (Json.not_meetsArray_of_at? hobject rfl), hobject]
  rfl

/-- What stands at a path with something to read is what is read there, exactly if every array that
is met stands at the end and has elements as its items. -/
theorem at?_eq_read?_iff (hpath : path ≠ []) (hread : document.read? path ≠ none) :
    (Json.object document).at? path = document.read? path ↔
      (Json.object document).ReadAsIs path := by
  by_cases hmeets : (Json.object document).MeetsArray path
  · have hreached := mt (read?_eq_none_iff hpath).2 hread
    rw [read?_eq_array hpath hmeets, if_neg hreached]
    constructor
    · intro hat above items habove harray
      by_cases hne : above = path
      · subst hne
        obtain rfl := Json.array.inj (Option.some.inj (harray.symm.trans hat))
        exact ⟨rfl, fun item hitem => Json.element_of_mem_reached hitem⟩
      · -- an array on the way would let nothing stand at the path
        obtain ⟨members, hobject⟩ :=
          Json.exists_object_above (hat ▸ Option.some_ne_none _) habove hne
        exact absurd (Option.some.inj (harray.symm.trans hobject)) (by simp)
    · intro hasIs
      obtain ⟨above, items, habove, harray⟩ := hmeets
      obtain ⟨rfl, hitems⟩ := hasIs above items habove harray
      rw [harray, Json.reached_of_at? harray, Json.elements_array_eq_self_iff.2 hitems]
  · refine iff_of_true ?_ fun above items habove harray =>
      absurd ⟨above, items, habove, harray⟩ hmeets
    rw [read?_eq_at? hpath hmeets] at hread ⊢
    cases hat : (Json.object document).at? path with
    | none => rfl
    | some value =>
      rw [hat] at hread
      rw [Option.filter_some] at hread ⊢
      split at hread
      · next hnull => rw [if_pos hnull]
      · exact absurd rfl hread

end Row

end ViewCompiler
