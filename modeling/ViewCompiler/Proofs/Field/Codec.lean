import ViewCompiler.Proofs.Field.FieldSet
import ViewCompiler.Proofs.Json.Record

/-!
# Fields are read back

* `Field.decode_encode`: a field is read back as it was written.
* `FieldSet.decode_encode`: so is a set whose index is that of its fields, as sets that have been
  read are.
-/

namespace ViewCompiler

theorem DataType.decode_encode (type : DataType) : decode type.encode = some type := by
  cases type <;> rfl

namespace Field

theorem FeatureKind.decode_name (kind : FeatureKind) :
    FeatureKind.decode (.string kind.name) = some kind := by
  cases kind <;> rfl

theorem Feature.decode_encode (feature : Feature) :
    Feature.decode feature.encode = some feature := by
  obtain ⟨members, hobject, hget⟩ := Json.exists_members
    [("type", some (.string feature.kind.name)), ("ref_field", feature.refField.map .string)]
    (by simp [KeyMap.keys])
  have href : Json.optional? members "ref_field" Json.string? = some feature.refField :=
    Json.optional?_string (by simp [hget, KeyMap.get?_cons])
  rw [encode, hobject, decode]
  simp [Json.record?, Json.required?, hget, KeyMap.get?_cons, FeatureKind.decode_name, href]

theorem decode_encode (field : Field) : decode field.encode = some field := by
  obtain ⟨members, hobject, hget⟩ := Json.exists_members
    [("name", some (.string field.name)),
      ("original_name", some (.string field.originalName)),
      ("display_name", some (.string field.displayName)),
      ("type", some field.type.encode),
      ("comment", if field.comment = "" then none else some (.string field.comment)),
      ("features",
        if field.features.isEmpty then none else some (.array (field.features.map Feature.encode)))]
    (by simp [KeyMap.keys])
  have hcomment : Json.orElse? members "comment" "" Json.string? = some field.comment :=
    Json.orElse?_string (by simp [hget, KeyMap.get?_cons])
  have hfeatures : Json.orElse? members "features" [] (Json.list? Feature.decode) =
      some field.features :=
    Json.orElse?_list (by simp [hget, KeyMap.get?_cons])
      fun feature _ => feature.decode_encode
  rw [encode, hobject, decode]
  simp only [Json.record?, Option.bind_eq_bind, Option.bind_some, hcomment, hfeatures]
  simp [Json.required?, Json.orElse?, hget, KeyMap.get?_cons, Json.string?,
    DataType.decode_encode]

end Field

namespace FieldSet

variable {set : FieldSet}

theorem decode_encode (h : set.Indexed) : decode set.encode = some set := by
  rw [decode, encode, Json.list?_map fun field _ => field.decode_encode, Option.map_some]
  exact congrArg some h.symm

theorem indexed_of_orElse? {members : KeyMap Json} {name : String}
    (h : Json.orElse? members name empty decode = some set) : set.Indexed := by
  rcases Json.orElse?_eq_some h with rfl | ⟨value, hvalue⟩
  · exact indexed_empty
  · exact indexed_of_decode hvalue

end FieldSet

end ViewCompiler
