import ViewCompiler.Proofs.KeyMap
import ViewCompiler.Field.FieldSet

/-!
# Lookups in field sets

A field set that is built from a list finds fields as a search through the list does.

* `FieldSet.Indexed`: the index is that of the fields, so that it leads to first occurrences.
* `FieldSet.get?_ofList`, `FieldSet.contains_ofList`: lookups in a set built from a list.
* `FieldSet.Indexed.push`, `FieldSet.indexed_narrowedTo`: the operations that keep the index.
* `FieldSet.Leads`: the index leads to fields, which every operation keeps, also a change of a name.
* `FieldSet.duplicateNames_eq_nil_iff`: the names that occur more than once are found.
-/

namespace ViewCompiler

namespace FieldSet

variable {set : FieldSet} {fields : List Field} {name : String}

/-- The index leads from each name to the first field of that name. -/
def Indexed (set : FieldSet) : Prop := set = ofList set.fields

theorem indexed_ofList (fields : List Field) : Indexed (ofList fields) := rfl

theorem indexed_empty : Indexed empty := rfl

theorem indexed_narrowedTo (set : FieldSet) (names : List String) :
    Indexed (set.narrowedTo names) := rfl

theorem indexed_of_decode {value : Json} (h : decode value = some set) : set.Indexed := by
  obtain ⟨fields, -, rfl⟩ := Option.map_eq_some_iff.1 h
  exact indexed_ofList fields

theorem indexFrom_append (first second : List Field) (index : KeyMap Nat) (position : Nat) :
    indexFrom index position (first ++ second) =
      indexFrom (indexFrom index position first) (position + first.length) second := by
  induction first generalizing index position with
  | nil => rfl
  | cons field rest ih =>
    rw [List.cons_append, indexFrom, ih, indexFrom, List.length_cons]
    congr 1
    omega

theorem Indexed.push (h : set.Indexed) (field : Field) : (set.push field).Indexed := by
  rw [FieldSet.push]
  split
  · exact h
  · next hnew =>
    have hindex : set.index = indexFrom [] 0 set.fields := congrArg FieldSet.index h
    simp only [contains, hindex] at hnew
    simp only [Indexed, ofList, indexFrom_append, indexFrom, hnew, hindex, Nat.zero_add]
    rfl

/-- The index of a list leads to first occurrences, and keeps the names that were there. -/
theorem get?_indexFrom (fields : List Field) (index : KeyMap Nat) (position : Nat)
    (name : String) :
    (indexFrom index position fields).get? name =
      (index.get? name).or
        ((fields.findIdx? fun field => field.name = name).map (· + position)) := by
  induction fields generalizing index position with
  | nil => simp [indexFrom]
  | cons field rest ih =>
    rw [indexFrom, ih, List.findIdx?_cons]
    cases hold : index.get? field.name with
    | some old =>
      by_cases hname : field.name = name
      · subst hname
        simp [KeyMap.contains, hold]
      · simp [KeyMap.contains, hold, hname, Function.comp_def, Nat.add_assoc, Nat.add_comm 1]
    | none =>
      by_cases hname : field.name = name
      · subst hname
        simp [KeyMap.contains, hold, KeyMap.get?_insert]
      · simp [KeyMap.contains, hold, KeyMap.get?_insert, hname, Function.comp_def, Nat.add_assoc,
          Nat.add_comm 1]

theorem get?_ofList (fields : List Field) (name : String) :
    (ofList fields).get? name = fields.find? fun field => field.name = name := by
  -- the index holds positions, so both searches are searches for a position
  rw [List.find?_eq_bind_findIdx?_getElem?]
  simp [get?, ofList, get?_indexFrom]

theorem contains_ofList (fields : List Field) (name : String) :
    (ofList fields).contains name = fields.any fun field => field.name = name := by
  simp only [contains, KeyMap.contains, ofList, get?_indexFrom, KeyMap.get?_nil, Option.none_or,
    Option.isSome_map, List.findIdx?_isSome]

theorem Indexed.get?_eq (h : set.Indexed) (name : String) :
    set.get? name = set.fields.find? fun field => field.name = name := by
  rw [h, get?_ofList, ← h]

theorem Indexed.contains_iff (h : set.Indexed) : set.contains name = true ↔ name ∈ set.names := by
  rw [h, contains_ofList, ← h]
  simp [names]

theorem mem_fields_of_get? {field : Field} (h : set.get? name = some field) :
    field ∈ set.fields := by
  obtain ⟨position, -, hposition⟩ := Option.bind_eq_some_iff.1 h
  exact List.mem_of_getElem? hposition

theorem Indexed.isSome_get? (h : set.Indexed) : (set.get? name).isSome = set.contains name := by
  rw [Bool.eq_iff_iff, h.get?_eq, List.find?_isSome, h.contains_iff]
  simp [names]

theorem Indexed.name_of_get? (h : set.Indexed) {field : Field} (hget : set.get? name = some field) :
    field.name = name := by
  rw [h.get?_eq] at hget
  simpa using List.find?_some hget

theorem Indexed.get?_of_narrowedTo (h : set.Indexed) {names : List String} {field : Field}
    (hget : (set.narrowedTo names).get? name = some field) : set.get? name = some field := by
  rw [narrowedTo, get?_ofList, List.find?_filter] at hget
  have hfound := List.find?_some hget
  simp only [decide_eq_true_eq] at hfound
  obtain ⟨hkept, rfl⟩ := hfound
  rw [h.get?_eq, ← hget]
  -- the fields of this name are kept
  refine congrArg (List.find? · set.fields) (funext fun other => ?_)
  by_cases hname : other.name = field.name
  · simp [hname, List.contains_iff_mem.1 hkept]
  · simp [hname]

/-! ### Positions -/

theorem contains_of_get? {field : Field} (h : set.get? name = some field) :
    set.contains name = true := by
  obtain ⟨position, hposition, -⟩ := Option.bind_eq_some_iff.1 h
  rw [contains, KeyMap.contains, hposition, Option.isSome_some]

/-- The index leads to positions of fields. -/
def Leads (set : FieldSet) : Prop :=
  ∀ name position, set.index.get? name = some position → position < set.fields.length

theorem Leads.exists_get? (h : set.Leads) (hname : set.contains name = true) :
    ∃ field, set.get? name = some field := by
  obtain ⟨position, hposition⟩ := Option.isSome_iff_exists.1 hname
  exact ⟨_, by rw [get?, hposition, Option.bind_some, List.getElem?_eq_getElem (h _ _ hposition)]⟩

theorem leads_ofList (fields : List Field) : Leads (ofList fields) := by
  intro name position h
  rw [ofList, get?_indexFrom, KeyMap.get?_nil, Option.none_or, Option.map_eq_some_iff] at h
  obtain ⟨found, hfound, rfl⟩ := h
  exact (List.findIdx?_eq_some_iff_getElem.1 hfound).1

theorem Indexed.leads (h : set.Indexed) : set.Leads := h ▸ leads_ofList set.fields

theorem Leads.push (h : set.Leads) (field : Field) : (set.push field).Leads := by
  rw [FieldSet.push]
  split
  · exact h
  · intro name position hposition
    rw [KeyMap.get?_insert] at hposition
    rw [List.length_append, List.length_singleton]
    split at hposition
    · exact Option.some.inj hposition ▸ Nat.lt_succ_self _
    · exact Nat.lt_succ_of_lt (h name position hposition)

theorem Leads.modify (h : set.Leads) (name : String) (f : Field → Field) :
    (set.modify name f).Leads := by
  rw [FieldSet.modify]
  split
  · exact h
  · intro other position hposition
    rw [List.length_modify]
    exact h other position hposition

/-! ### Repeated names -/

theorem repeated_go_eq_nil_iff {seen found texts : List String} :
    repeated.go seen found texts = [] ↔
      found = [] ∧ texts.Nodup ∧ ∀ text ∈ texts, text ∉ seen := by
  induction texts generalizing seen found with
  | nil => simp [repeated.go]
  | cons text rest ih =>
    rw [repeated.go]
    by_cases hseen : text ∈ seen
    · -- the text is reported and stays reported
      have hfound : (if found.contains text then found else found ++ [text]) ≠ [] := by
        split
        · next hmem => exact List.ne_nil_of_mem (List.contains_iff_mem.1 hmem)
        · exact List.append_ne_nil_of_right_ne_nil _ (List.cons_ne_nil _ _)
      rw [if_pos (List.contains_iff_mem.2 hseen), ih]
      constructor
      · rintro ⟨hnil, -⟩
        exact absurd hnil hfound
      · rintro ⟨-, -, hnew⟩
        exact absurd hseen (hnew text List.mem_cons_self)
    · rw [if_neg (mt List.contains_iff_mem.1 hseen), ih, List.nodup_cons, List.forall_mem_cons]
      constructor
      · rintro ⟨hnil, hnodup, hnew⟩
        have hnotMem : text ∉ rest := fun hmem => hnew text hmem List.mem_cons_self
        exact ⟨hnil, ⟨hnotMem, hnodup⟩, hseen,
          fun other hother hold => hnew other hother (List.mem_cons_of_mem _ hold)⟩
      · rintro ⟨hnil, ⟨hnotMem, hnodup⟩, -, hnew⟩
        refine ⟨hnil, hnodup, fun other hother hold => ?_⟩
        rcases List.mem_cons.1 hold with rfl | hold
        · exact hnotMem hother
        · exact hnew other hother hold

theorem repeated_eq_nil_iff {texts : List String} : repeated texts = [] ↔ texts.Nodup := by
  rw [repeated, repeated_go_eq_nil_iff]
  simp

theorem duplicateNames_eq_nil_iff : set.duplicateNames = [] ↔ set.names.Nodup :=
  repeated_eq_nil_iff

end FieldSet

end ViewCompiler
