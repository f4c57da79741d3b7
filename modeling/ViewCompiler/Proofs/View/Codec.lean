import ViewCompiler.Proofs.Field.Codec
import ViewCompiler.Proofs.Filter.Codec
import ViewCompiler.View.Codec

/-!
# Views are read back

A view holds nodes, a node its configuration, and that of a view node the view that it reads. So the
three are read back together, by induction on how deep they were read at first.

* `View.decode_encode`, `Node.decode_encode`: **a view or a node that has been read is read back as
  it was**.
-/

namespace ViewCompiler

/-! ### Parts -/

section Names

theorem ViewKind.decode_name (kind : ViewKind) : decode (.string kind.name) = some kind := by
  cases kind <;> rfl

theorem FieldScope.decode_name (scope : FieldScope) : decode (.string scope.name) = some scope := by
  cases scope <;> rfl

theorem Engine.decode_name (engine : Engine) : decode (.string engine.name) = some engine := by
  cases engine <;> rfl

theorem NodeKind.decode_name (kind : NodeKind) : decode (.string kind.name) = some kind := by
  cases kind <;> rfl

theorem JoinKind.decode_name (kind : JoinKind) : decode (.string kind.name) = some kind := by
  cases kind <;> rfl

theorem UnionKind.decode_name (kind : UnionKind) : decode (.string kind.name) = some kind := by
  cases kind <;> rfl

end Names

theorem Distinct.decode_encode (distinct : Distinct) : decode distinct.encode = some distinct := by
  obtain ⟨members, hobject, hget⟩ := Json.exists_all_members
    [("enable", .bool distinct.enabled), ("fields", .strings distinct.fields)]
    (by simp [KeyMap.keys])
  rw [encode, hobject, decode]
  simp [Json.record?, Json.orElse?, hget, KeyMap.get?_cons, Json.bool?, Json.strings?_strings]

theorem JoinKey.decode_encode (key : JoinKey) : decode key.encode = some key := by
  obtain ⟨members, hobject, hget⟩ := Json.exists_all_members
    [("left_field", .string key.left), ("right_field", .string key.right),
      ("operator", .string key.operator)]
    (by simp [KeyMap.keys])
  rw [encode, hobject, decode]
  simp [Json.record?, Json.required?, Json.orElse?, hget, KeyMap.get?_cons, Json.string?]

theorem UnionColumn.decode_encode (column : UnionColumn) :
    decode column.encode = some column := by
  obtain ⟨members, hobject, hget⟩ := Json.exists_all_members
    [("field", .string column.field), ("value_from", .string column.valueFrom)]
    (by simp [KeyMap.keys])
  rw [encode, hobject, decode]
  simp [Json.record?, Json.required?, Json.orElse?, hget, KeyMap.get?_cons, Json.string?]

theorem UnionColumn.decode_encodeAll (columns : List (List UnionColumn)) :
    Json.list? (Json.list? decode)
      (.array (columns.map fun mapping => .array (mapping.map encode))) = some columns :=
  Json.list?_map fun _ _ => Json.list?_map fun column _ => column.decode_encode

/-! ### Views, nodes and configurations -/

theorem Node.encodeAll_eq_map (nodes : List Node) : encodeAll nodes = nodes.map encode := by
  induction nodes with
  | nil => rfl
  | cons node rest ih => rw [encodeAll, ih, List.map_cons]

theorem View.encode_ne_null (view : View) : view.encode ≠ .null := by
  obtain ⟨id, name, technicalName, metaTableName, storedSql, dataSourceId, kind, engine, fields,
    scope, fieldScope, hasSqlNode, hasStar, isSingleSource⟩ := view
  rw [encode]
  exact fun h => by cases h

section Steps

variable {depth : Nat}

theorem View.readBack_succ
    (hnodes : ∀ value node, Node.decodeWithin depth value = some node →
      Json.ReadBack Node.decodeWithin Node.encode node)
    {value : Json} {view : View} (h : View.decodeWithin (depth + 1) value = some view) :
    Json.ReadBack View.decodeWithin View.encode view := by
  intro n hn
  obtain ⟨n, rfl⟩ : ∃ before, n = before + 1 := ⟨n - 1, by omega⟩
  rw [View.decodeWithin] at h
  simp only [↓Result.bind_eq_some] at h
  obtain ⟨found, -, id, -, name, -, technicalName, -, metaTableName, -, storedSql, -,
    dataSourceId, -, kind, -, engine, -, fields, hfields, scope, hscope, fieldScope, -, h⟩ := h
  obtain rfl := Option.some.inj h
  obtain ⟨members, hobject, hget⟩ := Json.exists_members
    [("id", some (.string id)),
      ("name", some (.string name)),
      ("technical_name", some (.string technicalName)),
      ("meta_table_name", some (.string metaTableName)),
      ("sql_str", storedSql.map .string),
      ("data_source_id", some (.string dataSourceId)),
      ("type", some (.string kind.name)),
      ("query_type", some (.string engine.name)),
      ("fields", some fields.encode),
      ("data_scope", if scope.isEmpty then none else some (.array (Node.encodeAll scope))),
      ("field_scope", some (.string fieldScope.name))]
    (by simp [KeyMap.keys])
  rw [View.encode, hobject] at hn ⊢
  have hindexed := FieldSet.indexed_of_orElse? hfields
  have hsql : Json.optional? members "sql_str" Json.string? = some storedSql :=
    Json.optional?_string (by simp [hget, KeyMap.get?_cons])
  have hlist : members.get? "data_scope" =
      if scope = [] then none else some (.array (scope.map Node.encode)) := by
    simp [hget, KeyMap.get?_cons, Node.encodeAll_eq_map]
  have hnodes : Json.orElse? members "data_scope" [] (Json.list? (Node.decodeWithin n)) =
      some scope := by
    refine Json.orElse?_list hlist fun node hnode => ?_
    obtain ⟨item, hitem⟩ := Json.exists_of_orElse?_list hscope hnode
    rw [if_neg (List.ne_nil_of_mem hnode)] at hlist
    have houter := Json.depth_lt_of_get? hlist
    have hinner := Json.depth_lt_of_mem (List.mem_map_of_mem (f := Node.encode) hnode)
    exact hnodes item node hitem n (by omega)
  rw [View.decodeWithin]
  simp only [↓Result.bind_eq_some]
  refine ⟨members, rfl, id, ?_, name, ?_, technicalName, ?_, metaTableName, ?_, storedSql, hsql,
    dataSourceId, ?_, kind, ?_, engine, ?_, fields, ?_, scope, hnodes, fieldScope, ?_, rfl⟩
  all_goals simp [Json.required?, Json.orElse?, hget, KeyMap.get?_cons, Json.string?,
    ViewKind.decode_name, Engine.decode_name, FieldScope.decode_name,
    FieldSet.decode_encode hindexed]

theorem Node.readBack_succ
    (hconfigs : ∀ kind value config, NodeConfig.decodeWithin depth kind value = some config →
      config.kind = kind ∧
        Json.ReadBack (NodeConfig.decodeWithin · kind) NodeConfig.encode config)
    {value : Json} {node : Node} (h : Node.decodeWithin (depth + 1) value = some node) :
    Json.ReadBack Node.decodeWithin Node.encode node := by
  intro n hn
  obtain ⟨n, rfl⟩ : ∃ before, n = before + 1 := ⟨n - 1, by omega⟩
  rw [Node.decodeWithin] at h
  simp only [↓Result.bind_eq_some] at h
  obtain ⟨found, -, kind, -, id, -, inputs, -, config, hconfig, outputFields, hfields, h⟩ := h
  obtain rfl := Option.some.inj h
  obtain ⟨rfl, hread⟩ := hconfigs kind _ config hconfig
  obtain ⟨members, hobject, hget⟩ := Json.exists_all_members
    [("id", .string id),
      ("type", .string config.kind.name),
      ("input_nodes", .strings inputs),
      ("config", config.encode),
      ("output_fields", outputFields.encode)]
    (by simp [KeyMap.keys])
  rw [Node.encode, hobject] at hn ⊢
  have hindexed := FieldSet.indexed_of_orElse? hfields
  have hmember : members.get? "config" = some config.encode := by
    simp [hget, KeyMap.get?_cons]
  have hback : NodeConfig.decodeWithin n config.kind config.encode = some config :=
    hread n (by have := Json.depth_lt_of_get? hmember; omega)
  rw [Node.decodeWithin]
  simp [Json.record?, Json.required?, Json.orElse?, hget, KeyMap.get?_cons, Json.string?,
    NodeKind.decode_name, Json.strings?_strings, hback, FieldSet.decode_encode hindexed]

/-- A configuration that has been read is one of the kind that was asked for, and is read back, if
views are. -/
theorem NodeConfig.readBack_succ
    (hviews : ∀ value view, View.decodeWithin depth value = some view →
      Json.ReadBack View.decodeWithin View.encode view)
    {kind : NodeKind} {value : Json} {config : NodeConfig}
    (h : NodeConfig.decodeWithin (depth + 1) kind value = some config) :
    config.kind = kind ∧
      Json.ReadBack (NodeConfig.decodeWithin · kind) NodeConfig.encode config := by
  -- what a configuration is read as is fixed by the kind, so each kind has its own members
  cases kind with
  | view =>
    rw [NodeConfig.decodeWithin] at h
    simp only [↓Result.bind_eq_some] at h
    obtain ⟨found, -, viewId, -, filter, hfilter, distinct, -, source, hsource, h⟩ := h
    obtain rfl := Option.some.inj h
    refine ⟨rfl, fun n hn => ?_⟩
    obtain ⟨n, rfl⟩ : ∃ before, n = before + 1 := ⟨n - 1, by omega⟩
    obtain ⟨members, hobject, hget⟩ := Json.exists_members
      [("view_id", some (.string viewId)),
        ("filters", filter.map Filter.encode),
        ("distinct", some distinct.encode),
        ("view", source.map View.encode)]
      (by simp [KeyMap.keys])
    have hencode : NodeConfig.encode (.view viewId filter distinct source) = .object members := by
      rw [NodeConfig.encode, ← hobject]
      cases source <;> rfl
    rw [hencode] at hn ⊢
    have hfilters : Json.optional? members "filters" Filter.decode = some filter :=
      Filter.optional?_encode hfilter (by simp [hget, KeyMap.get?_cons])
    have hmember : members.get? "view" = source.map View.encode := by
      simp [hget, KeyMap.get?_cons]
    have hview : Json.optional? members "view" (View.decodeWithin n) = some source := by
      refine Json.optional?_map hmember View.encode_ne_null fun view hview => ?_
      obtain ⟨item, -, hitem⟩ := Json.optional?_eq_some hsource hview
      rw [hview, Option.map_some] at hmember
      exact hviews item view hitem n (by have := Json.depth_lt_of_get? hmember; omega)
    simp only [NodeConfig.decodeWithin, Json.isNull, Bool.false_eq_true, ↓reduceIte,
      Json.record?, Option.bind_eq_bind, Option.bind_some, hfilters, hview]
    simp [Json.required?, Json.orElse?, hget, KeyMap.get?_cons, Json.string?,
      Distinct.decode_encode]
  | join =>
    rw [NodeConfig.decodeWithin] at h
    simp only [↓Result.bind_eq_some] at h
    obtain ⟨found, -, kind, -, keys, -, filter, hfilter, distinct, -, h⟩ := h
    obtain rfl := Option.some.inj h
    refine ⟨rfl, fun n hn => ?_⟩
    obtain ⟨n, rfl⟩ : ∃ before, n = before + 1 := ⟨n - 1, by omega⟩
    obtain ⟨members, hobject, hget⟩ := Json.exists_members
      [("join_type", some (.string kind.name)),
        ("join_on", some (.array (keys.map JoinKey.encode))),
        ("filters", filter.map Filter.encode),
        ("distinct", some distinct.encode)]
      (by simp [KeyMap.keys])
    have hfilters : Json.optional? members "filters" Filter.decode = some filter :=
      Filter.optional?_encode hfilter (by simp [hget, KeyMap.get?_cons])
    have hkeys : Json.list? JoinKey.decode (.array (keys.map JoinKey.encode)) = some keys :=
      Json.list?_map fun key _ => key.decode_encode
    rw [NodeConfig.encode, hobject]
    simp only [NodeConfig.decodeWithin, Json.isNull, Bool.false_eq_true, ↓reduceIte,
      Json.record?, Option.bind_eq_bind, Option.bind_some, hfilters]
    simp [Json.required?, Json.orElse?, hget, KeyMap.get?_cons, JoinKind.decode_name, hkeys,
      Distinct.decode_encode]
  | union =>
    rw [NodeConfig.decodeWithin] at h
    simp only [↓Result.bind_eq_some] at h
    obtain ⟨found, -, kind, -, columns, -, filter, hfilter, h⟩ := h
    obtain rfl := Option.some.inj h
    refine ⟨rfl, fun n hn => ?_⟩
    obtain ⟨n, rfl⟩ : ∃ before, n = before + 1 := ⟨n - 1, by omega⟩
    obtain ⟨members, hobject, hget⟩ := Json.exists_members
      [("union_type", some (.string kind.name)),
        ("union_fields",
          some (.array (columns.map fun mapping => .array (mapping.map UnionColumn.encode)))),
        ("filters", filter.map Filter.encode)]
      (by simp [KeyMap.keys])
    have hfilters : Json.optional? members "filters" Filter.decode = some filter :=
      Filter.optional?_encode hfilter (by simp [hget, KeyMap.get?_cons])
    rw [NodeConfig.encode, hobject]
    simp only [NodeConfig.decodeWithin, Json.isNull, Bool.false_eq_true, ↓reduceIte,
      Json.record?, Option.bind_eq_bind, Option.bind_some, hfilters]
    simp [Json.required?, Json.orElse?, hget, KeyMap.get?_cons, UnionKind.decode_name,
      UnionColumn.decode_encodeAll]
  | sql =>
    rw [NodeConfig.decodeWithin] at h
    simp only [↓Result.bind_eq_some] at h
    obtain ⟨found, -, expression, -, h⟩ := h
    obtain rfl := Option.some.inj h
    refine ⟨rfl, fun n hn => ?_⟩
    obtain ⟨n, rfl⟩ : ∃ before, n = before + 1 := ⟨n - 1, by omega⟩
    obtain ⟨members, hobject, hget⟩ := Json.exists_all_members
      [("sql_expression", .string expression)] (by simp [KeyMap.keys])
    rw [NodeConfig.encode, hobject]
    simp [NodeConfig.decodeWithin, Json.isNull, Json.record?, Json.orElse?, hget,
      KeyMap.get?_cons, Json.string?]
  | output =>
    obtain rfl : NodeConfig.output = config := Option.some.inj h
    refine ⟨rfl, fun n hn => ?_⟩
    obtain ⟨n, rfl⟩ : ∃ before, n = before + 1 := ⟨n - 1, by omega⟩
    rfl

end Steps

/-- **Views, nodes and configurations that have been read are read back**, whatever they hold. -/
theorem View.readBack (depth : Nat) :
    (∀ value view, View.decodeWithin depth value = some view →
      Json.ReadBack View.decodeWithin View.encode view) ∧
    (∀ value node, Node.decodeWithin depth value = some node →
      Json.ReadBack Node.decodeWithin Node.encode node) ∧
    ∀ kind value config, NodeConfig.decodeWithin depth kind value = some config →
      config.kind = kind ∧
        Json.ReadBack (NodeConfig.decodeWithin · kind) NodeConfig.encode config := by
  induction depth with
  | zero =>
    refine ⟨fun _ _ h => ?_, fun _ _ h => ?_, fun _ _ _ h => ?_⟩ <;> cases h
  | succ depth ih =>
    obtain ⟨hviews, hnodes, hconfigs⟩ := ih
    exact ⟨fun _ _ h => View.readBack_succ hnodes h, fun _ _ h => Node.readBack_succ hconfigs h,
      fun _ _ _ h => NodeConfig.readBack_succ hviews h⟩

theorem View.decode_encode {value : Json} {view : View} (h : View.decode value = some view) :
    View.decode view.encode = some view :=
  (View.readBack _).1 _ _ h _ (Nat.lt_succ_self _)

theorem Node.decode_encode {value : Json} {node : Node} (h : Node.decode value = some node) :
    Node.decode node.encode = some node :=
  (View.readBack _).2.1 _ _ h _ (by omega)

end ViewCompiler
