import ViewCompiler.Proofs.View.Codec
import ViewCompiler.Query.Basic

/-!
# Queries are read back

* `Query.decode_encode`: **a query that has been read is read back as it was**.
* `Json.recode_stable`: **so is a view, a query, a node, a field or a filter**; what is written is
  written again as it is.
-/

namespace ViewCompiler

theorem Format.decode_name (format : Format) : decode (.string format.name) = some format := by
  cases format <;> rfl

theorem Direction.decode_name (direction : Direction) :
    decode (.string direction.name) = some direction := by
  cases direction <;> rfl

theorem SortKey.decode_encode (key : SortKey) : decode key.encode = some key := by
  obtain ⟨field, direction⟩ := key
  obtain ⟨members, hobject, hget⟩ := Json.exists_all_members
    [("field", .string field),
      ("direction", Json.ofOption (fun d => .string (Direction.name d)) direction)]
    (by simp [KeyMap.keys])
  rw [encode, hobject, decode]
  -- a key without a direction is written with `null`
  cases direction <;>
    simp [Json.record?, Json.required?, Json.optional?, hget, KeyMap.get?_cons, Json.string?,
      Json.ofOption, Direction.decode_name]

theorem AccessRule.decode_encode {value : Json} {rule : AccessRule}
    (h : decode value = some rule) : decode rule.encode = some rule := by
  rw [decode] at h
  simp only [↓Result.bind_eq_some] at h
  obtain ⟨found, -, id, -, name, -, fields, -, rowFilter, hfilter, h⟩ := h
  obtain rfl := Option.some.inj h
  obtain ⟨members, hobject, hget⟩ := Json.exists_members
    [("id", some (.string id)), ("name", some (.string name)),
      ("fields", some (.strings fields)), ("row_filters", rowFilter.map Filter.encode)]
    (by simp [KeyMap.keys])
  have hfilters : Json.optional? members "row_filters" Filter.decode = some rowFilter :=
    Filter.optional?_encode hfilter (by simp [hget, KeyMap.get?_cons])
  rw [encode, hobject, decode]
  simp only [Json.record?, Option.bind_eq_bind, Option.bind_some, hfilters]
  simp [Json.orElse?, hget, KeyMap.get?_cons, Json.string?, Json.strings?_strings]

theorem Cursor.decode_encode (cursor : Cursor) : decode cursor.encode = some cursor := by
  obtain ⟨members, hobject, hget⟩ := Json.exists_members
    [("search_after", some (.array cursor.values)), ("pit_id", cursor.pitId.map .string),
      ("pit_keep_alive", cursor.pitKeepAlive.map .string)]
    (by simp [KeyMap.keys])
  have hpitId : Json.optional? members "pit_id" Json.string? = some cursor.pitId :=
    Json.optional?_string (by simp [hget, KeyMap.get?_cons])
  have hkeepAlive : Json.optional? members "pit_keep_alive" Json.string? =
      some cursor.pitKeepAlive :=
    Json.optional?_string (by simp [hget, KeyMap.get?_cons])
  rw [encode, hobject, decode]
  simp only [Json.record?, Option.bind_eq_bind, Option.bind_some, hpitId, hkeepAlive]
  simp [Json.orElse?, hget, KeyMap.get?_cons, Json.items?]

theorem Cursor.encode_ne_null (cursor : Cursor) : cursor.encode ≠ .null := by
  rw [encode]
  exact fun h => by cases h

/-- **A query that has been read is read back as it was.** -/
theorem Query.decode_encode {value : Json} {query : Query} (h : decode value = some query) :
    decode query.encode = some query := by
  rw [decode] at h
  simp only [↓Result.bind_eq_some] at h
  obtain ⟨found, -, filter, hfilter, sort, -, limit, hlimit, offset, hoffset, start, hstart,
    stop, hstop, dateField, -, format, -, outputFields, -, needTotal, -, rules, hrules, scroll, -,
    scrollId, -, useCursor, -, cursor, -, sql, -, allowMissingField, -, includeView, -, h⟩ := h
  obtain rfl := Option.some.inj h
  obtain ⟨members, hobject, hget⟩ := Json.exists_members
    [("filters", filter.map Filter.encode),
      ("sort", some (.array (sort.map SortKey.encode))),
      ("limit", some (.nat limit)),
      ("offset", some (.nat offset)),
      ("start", some (.int start)),
      ("end", some (.int stop)),
      ("date_field", dateField.map .string),
      ("format", some (.string format.name)),
      ("output_fields", some (.strings outputFields)),
      ("need_total", some (.bool needTotal)),
      ("row_column_rules", some (.array (rules.map AccessRule.encode))),
      ("scroll", scroll.map .string),
      ("scroll_id", scrollId.map .string),
      ("use_search_after", some (.bool useCursor)),
      ("search_after", cursor.map Cursor.encode),
      ("sql", sql.map .string),
      ("allow_non_exist_field", some (.bool allowMissingField)),
      ("include_view", some (.bool includeView))]
    (by simp [KeyMap.keys])
  have hfilters : Json.optional? members "filters" Filter.decode = some filter :=
    Filter.optional?_encode hfilter (by simp [hget, KeyMap.get?_cons])
  have hdateField : Json.optional? members "date_field" Json.string? = some dateField :=
    Json.optional?_string (by simp [hget, KeyMap.get?_cons])
  have hscroll : Json.optional? members "scroll" Json.string? = some scroll :=
    Json.optional?_string (by simp [hget, KeyMap.get?_cons])
  have hscrollId : Json.optional? members "scroll_id" Json.string? = some scrollId :=
    Json.optional?_string (by simp [hget, KeyMap.get?_cons])
  have hsql : Json.optional? members "sql" Json.string? = some sql :=
    Json.optional?_string (by simp [hget, KeyMap.get?_cons])
  have hcursor : Json.optional? members "search_after" Cursor.decode = some cursor :=
    Json.optional?_map (by simp [hget, KeyMap.get?_cons]) Cursor.encode_ne_null
      fun cursor _ => cursor.decode_encode
  have hsort : Json.list? SortKey.decode (.array (sort.map SortKey.encode)) = some sort :=
    Json.list?_map fun key _ => key.decode_encode
  have hrule : Json.list? AccessRule.decode (.array (rules.map AccessRule.encode)) = some rules :=
    Json.list?_map fun rule hrule =>
      (Json.exists_of_orElse?_list hrules hrule).elim fun _ hvalue => rule.decode_encode hvalue
  rw [encode, hobject, decode]
  simp only [↓Result.bind_eq_some]
  refine ⟨members, rfl, filter, hfilters, sort, ?_, limit, ?_, offset, ?_, start, ?_, stop, ?_,
    dateField, hdateField, format, ?_, outputFields, ?_, needTotal, ?_, rules, ?_, scroll, hscroll,
    scrollId, hscrollId, useCursor, ?_, cursor, hcursor, sql, hsql, allowMissingField, ?_,
    includeView, ?_, rfl⟩
  all_goals simp [Json.orElse?, hget, KeyMap.get?_cons, hsort, hrule, Json.nat?_of_orElse? hlimit,
    Json.nat?_of_orElse? hoffset, Json.int?_of_orElse? hstart, Json.int?_of_orElse? hstop,
    Format.decode_name, Json.strings?_strings, Json.bool?]

/-! ### Everything that is read and written -/

namespace Json

/-- What is read of the value is read back as it was when it has been written, and what has been
written is written again as it is. -/
structure RoundTrips {α : Type} (decode : Json → Option α) (encode : α → Json) (value : Json) :
    Prop where
  decode_encode (a : α) (h : decode value = some a) : decode (encode a) = some a
  recode (written : Json) (h : (decode value).map encode = some written) :
    (decode written).map encode = some written

theorem roundTrips_of_decode_encode {α : Type} {decode : Json → Option α} {encode : α → Json}
    {value : Json} (h : ∀ a, decode value = some a → decode (encode a) = some a) :
    RoundTrips decode encode value := by
  refine ⟨h, fun written hwritten => ?_⟩
  obtain ⟨a, ha, rfl⟩ := Option.map_eq_some_iff.1 hwritten
  rw [h a ha, Option.map_some]

/-- **Views, queries, nodes, fields and filters round-trip**, whatever value they are read from. -/
theorem recode_stable (value : Json) :
    RoundTrips View.decode View.encode value ∧
      RoundTrips Query.decode Query.encode value ∧
      RoundTrips Node.decode Node.encode value ∧
      RoundTrips Field.decode Field.encode value ∧
      RoundTrips Filter.decode Filter.encode value :=
  ⟨roundTrips_of_decode_encode fun _ h => View.decode_encode h,
    roundTrips_of_decode_encode fun _ h => Query.decode_encode h,
    roundTrips_of_decode_encode fun _ h => Node.decode_encode h,
    roundTrips_of_decode_encode fun field _ => field.decode_encode,
    roundTrips_of_decode_encode fun _ h => Filter.decode_encode h⟩

/-- A view over a view that it holds, with a filter of two levels, a field of a type that is not
known and members that are `null`, missing or of no meaning. -/
def nestedView : Json :=
  .ofMembers
    [("id", .string "outer"), ("type", .string "custom"), ("sql_str", .null),
      ("data_scope", .array
        [.ofMembers
          [("id", .string "source"), ("type", .string "view"),
            ("config", .ofMembers
              [("view_id", .string "inner"),
                ("filters", .ofMembers
                  [("operation", .string "and"),
                    ("sub_conditions", .array
                      [.ofMembers [("field", .string "a"), ("operation", .string "exist"),
                        ("value", .null)]])]),
                ("view", .ofMembers
                  [("id", .string "inner"),
                    ("fields", .array
                      [.ofMembers [("name", .string "a"), ("type", .string "hyperlog")]])])])],
          .ofMembers
            [("id", .string "out"), ("type", .string "output"),
              ("input_nodes", .strings ["source"]), ("config", .int 7)]])]

theorem recode_stable_nestedView :
    ∃ view, View.decode nestedView = some view ∧ View.decode view.encode = some view := by
  have hview : ∃ view, View.decode nestedView = some view := ⟨_, rfl⟩
  obtain ⟨view, hview⟩ := hview
  exact ⟨view, hview, (recode_stable nestedView).1.decode_encode view hview⟩

end Json

end ViewCompiler
