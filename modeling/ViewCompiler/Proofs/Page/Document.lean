import ViewCompiler.Page.Document
import ViewCompiler.Proofs.KeyMap
import ViewCompiler.Proofs.Result

/-!
# What a shaped document tells

* `Row.leafPaths`: the paths of the leaves of a document, with arrays passed through.
* `Row.keeps_flattenWhere`: **the keys of a flattened document are keys that are kept.**
* `Row.exists_field_of_leaf_pick`: **the leaves of a picked document lie at the paths of the fields
  or below them.**
-/

namespace ViewCompiler

theorem Text.splitOn_ne_nil (separator : Char) (cs : List Char) : splitOn separator cs ≠ [] := by
  cases cs with
  | nil => simp [splitOn]
  | cons c rest =>
    rw [splitOn]
    split
    · simp
    · split <;> simp

theorem Field.path_ne_nil (field : Field) : field.path ≠ [] := fun h =>
  Text.splitOn_ne_nil '.' field.name.toList (List.map_eq_nil_iff.1 h)

namespace Row

/-! ### Keys of a flattened document -/

section Keys

variable {keep : String → Bool} {row : Row} {key : String}

/-- Every key of the row is one that is kept. -/
def Keeps (keep : String → Bool) (row : Row) : Prop := ∀ key ∈ KeyMap.keys row, keep key = true

theorem Keeps.insert (h : row.Keeps keep) (hkey : keep key = true) (value : Json) :
    Keeps keep (KeyMap.insert row key value) := by
  intro other hother
  rcases KeyMap.mem_keys_insert.1 hother with rfl | hother
  · exact hkey
  · exact h other hother

theorem Keeps.put (h : row.Keeps keep) (key : String) (value : Json) :
    (row.put keep key value).Keeps keep := by
  rw [Row.put]
  split
  · next hkey => exact h.insert hkey value
  · exact h

/-- A value that is there was kept, so that more can be collected under its key. -/
theorem Keeps.collect (h : row.Keeps keep) (key : String) (scalar : Json) :
    (row.collect keep key scalar).Keeps keep := by
  rw [Row.collect]
  split
  · exact h.put key scalar
  · next found hfound => exact h.insert (h key (KeyMap.mem_keys_of_get? hfound)) _
  · next first _ hfound => exact h.insert (h key (KeyMap.mem_keys_of_get? hfound)) _

mutual

theorem Keeps.assign {row : Row} (h : row.Keeps keep) (key : String) (value : Json) :
    (assign keep key value row).Keeps keep := by
  match value with
  | .object [] => exact h.put key _
  | .object (member :: rest) => exact h.assignMembers key (member :: rest)
  | .array items =>
    rw [Row.assign]
    split
    · exact h.assignItems key items
    · exact h.put key _
  | .null | .bool _ | .number _ | .string _ => exact h.collect key _

theorem Keeps.assignMembers {row : Row} (h : row.Keeps keep) (key : String)
    (members : List (String × Json)) :
    (assignMembers keep key members row).Keeps keep := by
  match members with
  | [] => exact h
  | (name, value) :: rest =>
    rw [Row.assignMembers]
    exact (h.assign (key ++ "." ++ name) value).assignMembers key rest

theorem Keeps.assignItems {row : Row} (h : row.Keeps keep) (key : String) (items : List Json) :
    (assignItems keep key items row).Keeps keep := by
  match items with
  | [] => exact h
  | item :: rest =>
    rw [Row.assignItems]
    exact (h.assign key item).assignItems key rest

end

/-- **The keys of a flattened document are keys that are kept.** -/
theorem keeps_flattenWhere (keep : String → Bool) (document : Row) :
    (flattenWhere keep document).Keeps keep := by
  have hrow : Keeps keep [] := fun key hkey => absurd hkey List.not_mem_nil
  rw [flattenWhere]
  -- for any row that is built so far, or the fold would not go through
  generalize ([] : Row) = row at hrow ⊢
  induction document generalizing row with
  | nil => exact hrow
  | cons entry rest ih => exact ih _ (hrow.assign entry.1 entry.2)

end Keys

/-! ### Leaves of a picked document -/

mutual

/-- The paths of the leaves of a value. A scalar is a leaf and so is an empty array or object; the
items of an array have the path of the array. -/
def leafPathsAt : Json → List (List String)
  | .object (member :: rest) => leafPaths (member :: rest)
  | .array (item :: rest) => leafPathsIn (item :: rest)
  | _ => [[]]

/-- The paths of the leaves of a document. -/
def leafPaths : List (String × Json) → List (List String)
  | [] => []
  | (name, value) :: rest => (leafPathsAt value).map (name :: ·) ++ leafPaths rest

/-- The paths of the leaves of the items of an array. -/
def leafPathsIn : List Json → List (List String)
  | [] => []
  | item :: rest => leafPathsAt item ++ leafPathsIn rest

end

section Leaves

variable {row picked : Row} {value : Json} {path leaf : List String} {name : String}

theorem mem_leafPaths :
    leaf ∈ leafPaths row ↔
      ∃ name value, (name, value) ∈ row ∧ ∃ rest ∈ leafPathsAt value, leaf = name :: rest := by
  induction row with
  | nil => simp [leafPaths]
  | cons entry rest ih =>
    obtain ⟨name, value⟩ := entry
    rw [leafPaths, List.mem_append, ih]
    constructor
    · rintro (h | ⟨name', value', hmem, h⟩)
      · obtain ⟨below, hbelow, rfl⟩ := List.mem_map.1 h
        exact ⟨name, value, List.mem_cons_self, below, hbelow, rfl⟩
      · exact ⟨name', value', List.mem_cons_of_mem _ hmem, h⟩
    · rintro ⟨name', value', hmem, below, hbelow, rfl⟩
      rcases List.mem_cons.1 hmem with heq | hmem
      · obtain ⟨rfl, rfl⟩ := Prod.mk.inj heq
        exact .inl (List.mem_map_of_mem hbelow)
      · exact .inr ⟨name', value', hmem, below, hbelow, rfl⟩

theorem leafPathsAt_object (h : row ≠ []) : leafPathsAt (.object row) = leafPaths row := by
  cases row with
  | nil => exact absurd rfl h
  | cons member rest => rw [leafPathsAt]

theorem mem_leafPaths_insert (h : leaf ∈ leafPaths (row.insert name value)) :
    leaf ∈ leafPaths row ∨ ∃ rest ∈ leafPathsAt value, leaf = name :: rest := by
  obtain ⟨name', value', hmem, hleaf⟩ := mem_leafPaths.1 h
  rcases KeyMap.mem_insert hmem with heq | hmem
  · obtain ⟨rfl, rfl⟩ := Prod.mk.inj heq
    exact .inr hleaf
  · exact .inl (mem_leafPaths.2 ⟨name', value', hmem, hleaf⟩)

theorem setAt_ne_nil (hpath : path ≠ []) (h : setAt path value row = .ok picked) : picked ≠ [] := by
  match path with
  | [last] =>
    obtain rfl := Except.ok.inj h
    exact KeyMap.insert_ne_nil row last value
  | segment :: next :: rest =>
    rw [setAt] at h
    · split at h
      · obtain ⟨inner, -, rfl⟩ := Result.map_eq_ok.1 h
        exact KeyMap.insert_ne_nil row segment _
      · obtain ⟨inner, -, rfl⟩ := Result.map_eq_ok.1 h
        exact KeyMap.insert_ne_nil row segment _
      · exact absurd h (by simp)
    · simp

/-- The leaves after a value is set are old ones and leaves at its path or below. -/
theorem leaf_setAt {path leaf : List String} {row picked : Row} (hpath : path ≠ [])
    (h : setAt path value row = .ok picked) (hleaf : leaf ∈ leafPaths picked) :
    leaf ∈ leafPaths row ∨ path <+: leaf := by
  match path with
  | [last] =>
    obtain rfl := Except.ok.inj h
    refine (mem_leafPaths_insert hleaf).imp_right ?_
    rintro ⟨rest, -, rfl⟩
    exact ⟨rest, rfl⟩
  | segment :: next :: rest =>
    rw [setAt] at h
    · split at h
      · next hnone =>
        obtain ⟨inner, hinner, rfl⟩ := Result.map_eq_ok.1 h
        refine (mem_leafPaths_insert hleaf).imp_right ?_
        rintro ⟨below, hbelow, rfl⟩
        rw [leafPathsAt_object (setAt_ne_nil (by simp) hinner)] at hbelow
        rcases leaf_setAt (by simp) hinner hbelow with hold | hstarts
        · exact absurd hold (by simp [leafPaths])
        · exact List.cons_prefix_cons.2 ⟨rfl, hstarts⟩
      · next old hold =>
        obtain ⟨inner, hinner, rfl⟩ := Result.map_eq_ok.1 h
        rcases mem_leafPaths_insert hleaf with hleaf | ⟨below, hbelow, rfl⟩
        · exact .inl hleaf
        rw [leafPathsAt_object (setAt_ne_nil (by simp) hinner)] at hbelow
        rcases leaf_setAt (by simp) hinner hbelow with hbelow | hstarts
        · -- an object with a leaf of its own has members, so that the leaf is one of the row
          have hne : old ≠ [] := by
            rintro rfl
            exact absurd hbelow (by simp [leafPaths])
          refine .inl (mem_leafPaths.2 ⟨segment, _, KeyMap.mem_of_get? hold, below, ?_, rfl⟩)
          rwa [leafPathsAt_object hne]
        · exact .inr (List.cons_prefix_cons.2 ⟨rfl, hstarts⟩)
      · exact absurd h (by simp)
    · simp

theorem leaf_pickField {document : Row} {field : Field}
    (h : pickField document row field = .ok picked) (hleaf : leaf ∈ leafPaths picked) :
    leaf ∈ leafPaths row ∨ field.path <+: leaf := by
  rw [pickField] at h
  split_ifs at h
  · obtain rfl := Except.ok.inj h
    exact .inl hleaf
  · exact leaf_setAt field.path_ne_nil h hleaf

/-- **The leaves of a picked document lie at the paths of the fields or below them.** -/
theorem exists_field_of_leaf_pick {document : Row} {fields : List Field}
    (h : pick document fields = .ok picked) (hleaf : leaf ∈ leafPaths picked) :
    ∃ field ∈ fields, field.path <+: leaf := by
  suffices hfold : ∀ row : Row, fields.foldlM (pickField document) row = .ok picked →
      leaf ∈ leafPaths row ∨ ∃ field ∈ fields, field.path <+: leaf from
    (hfold [] h).resolve_left (by simp [leafPaths])
  clear h
  induction fields with
  | nil =>
    intro row h
    obtain rfl := Except.ok.inj h
    exact .inl hleaf
  | cons field rest ih =>
    intro row h
    rw [List.foldlM_cons] at h
    obtain ⟨next, hnext, h⟩ := Result.bind_eq_ok.1 h
    rcases ih next h with hold | ⟨other, hother, hstarts⟩
    · rcases leaf_pickField hnext hold with hold | hstarts
      · exact .inl hold
      · exact .inr ⟨field, List.mem_cons_self, hstarts⟩
    · exact .inr ⟨other, List.mem_cons_of_mem _ hother, hstarts⟩

end Leaves

end Row

end ViewCompiler
