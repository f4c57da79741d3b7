import ViewCompiler.Filter.Basic
import ViewCompiler.Proofs.Json.Record

/-!
# Filters are read back

* `Filter.decodeWithin_encode`: a filter that has been read is read back as it was, as deep as it
  has to be read.
* `Filter.decode_encode`: **a filter that has been read is read back as it was**.
-/

namespace ViewCompiler

namespace Filter

theorem encodeAll_eq_map (filters : List Filter) : encodeAll filters = filters.map encode := by
  induction filters with
  | nil => rfl
  | cons filter rest ih => rw [encodeAll, ih, List.map_cons]

/-- What a filter has been read from: its children have been read from values too, and its value is
not `null`. -/
theorem decodeWithin_eq_some {depth : Nat} {value : Json} {filter : Filter}
    (h : decodeWithin (depth + 1) value = some filter) :
    filter.value ≠ some .null ∧
      ∀ child ∈ filter.children, ∃ item, decodeWithin depth item = some child := by
  rw [decodeWithin] at h
  simp only [↓Result.bind_eq_some] at h
  obtain ⟨members, -, field, -, operation, -, children, hchildren, valueFrom, -, given, hgiven,
    h⟩ := h
  obtain rfl := Option.some.inj h
  refine ⟨?_, fun child hchild => ?_⟩
  · rintro rfl
    obtain ⟨value, hvalue, heq⟩ := Json.optional?_eq_some hgiven rfl
    exact hvalue (Option.some.inj heq)
  · exact Json.exists_of_orElse?_list hchildren hchild

/-- **A filter that has been read is read back as it was**, as deep as its value nests. -/
theorem decodeWithin_encode {depth : Nat} {value : Json} {filter : Filter}
    (h : decodeWithin depth value = some filter) : Json.ReadBack decodeWithin encode filter := by
  induction depth generalizing value filter with
  | zero => cases h
  | succ depth ih =>
    intro n hn
    obtain ⟨n, rfl⟩ : ∃ before, n = before + 1 := ⟨n - 1, by omega⟩
    obtain ⟨hnull, hchildren⟩ := decodeWithin_eq_some h
    obtain ⟨field, operation, children, valueFrom, given⟩ := filter
    obtain ⟨members, hobject, hget⟩ := Json.exists_members
      [("field", if field = "" then none else some (.string field)),
        ("operation", if operation = "" then none else some (.string operation)),
        ("sub_conditions", if children.isEmpty then none else some (.array (encodeAll children))),
        ("value_from", if valueFrom = "" then none else some (.string valueFrom)),
        ("value", given)] (by simp [KeyMap.keys])
    rw [encode, hobject] at hn ⊢
    have hfield : Json.orElse? members "field" "" Json.string? = some field :=
      Json.orElse?_string (by simp [hget, KeyMap.get?_cons])
    have hoperation : Json.orElse? members "operation" "" Json.string? = some operation :=
      Json.orElse?_string (by simp [hget, KeyMap.get?_cons])
    have hvalueFrom : Json.orElse? members "value_from" "" Json.string? = some valueFrom :=
      Json.orElse?_string (by simp [hget, KeyMap.get?_cons])
    have hlist : members.get? "sub_conditions" =
        if children = [] then none else some (.array (children.map encode)) := by
      simp [hget, KeyMap.get?_cons, encodeAll_eq_map]
    have hread : Json.orElse? members "sub_conditions" [] (Json.list? (decodeWithin n)) =
        some children := by
      refine Json.orElse?_list hlist fun child hchild => ?_
      obtain ⟨item, hitem⟩ := hchildren child hchild
      rw [if_neg (List.ne_nil_of_mem hchild)] at hlist
      have houter := Json.depth_lt_of_get? hlist
      have hinner := Json.depth_lt_of_mem (List.mem_map_of_mem (f := encode) hchild)
      exact ih hitem n (by omega)
    have hgiven : Json.optional? members "value" some = some given := by
      have hvalue : members.get? "value" = given := by simp [hget, KeyMap.get?_cons]
      rw [Json.optional?, hvalue]
      cases given with
      | none => rfl
      | some value =>
        cases value with
        | null => exact absurd rfl hnull
        | _ => rfl
    rw [decodeWithin]
    simp [Json.record?, hfield, hoperation, hread, hvalueFrom, hgiven]

theorem encode_ne_null (filter : Filter) : filter.encode ≠ .null := by
  obtain ⟨field, operation, children, valueFrom, value⟩ := filter
  rw [encode]
  exact fun h => by cases h

/-- **A filter that has been read is read back as it was.** -/
theorem decode_encode {value : Json} {filter : Filter} (h : decode value = some filter) :
    decode filter.encode = some filter :=
  decodeWithin_encode h _ (Nat.lt_succ_self _)

theorem optional?_encode {found members : KeyMap Json} {name : String} {filter : Option Filter}
    (hread : Json.optional? found name decode = some filter)
    (h : members.get? name = filter.map encode) :
    Json.optional? members name decode = some filter := by
  refine Json.optional?_map h encode_ne_null fun given hgiven => ?_
  obtain ⟨value, -, hvalue⟩ := Json.optional?_eq_some hread hgiven
  exact decode_encode hvalue

end Filter

end ViewCompiler
