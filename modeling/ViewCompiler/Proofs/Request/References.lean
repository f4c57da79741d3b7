import ViewCompiler.Proofs.Filter.Addressed
import ViewCompiler.Proofs.Relation.Lineage
import ViewCompiler.Readers.Standard
import ViewCompiler.Request.Search

/-!
# One field, one column

A request refers to a field in two ways: it gives the field out or sorts by it, and it filters by
it. The two ways are read here off the texts and the clauses that are written.

* `Node.Selects`, `SqlRequest.Orders`, `SortClause.Orders`: the names that a `SELECT` list, an
  `ORDER BY` and the order of a search give to a field. They are the name of the field.
* `Filter.Tests`, `Filter.Searches`: the names that filters give to it. A condition takes the column
  that the field reads.
* `View.Indexed`: the field sets of a view are indexed, which its check keeps.
* `View.references_agree_iff`: **both ways refer to a field by one name exactly if the field bears
  the name of its column**; in a search of an atomic view they always do.
-/

namespace ViewCompiler

/-! ### Field sets of a checked view -/

namespace Node

variable {settings : QuerySettings} {engine : Engine} {scope : List Node} {node : Node}

theorem indexed_withProjected [Readers] {projected : Option (FieldSet × Bool)}
    (hindexed : node.outputFields.Indexed)
    (h : node.check settings engine scope = .ok projected) :
    (node.withProjected projected).outputFields.Indexed := by
  obtain ⟨found, hconfig, hfound⟩ := Result.bind_eq_ok.1 h
  split at hfound
  · obtain rfl : found = projected := Except.ok.inj hfound
    obtain ⟨rfl, -⟩ | ⟨expression, fields, -, rfl, hfields⟩ := checkConfig_eq_ok hconfig
    · exact hindexed
    · exact (projectedFields_eq_ok hfields).1
  · cases hfound

theorem config_withProjected (node : Node) (projected : Option (FieldSet × Bool)) :
    (node.withProjected projected).config = node.config := by
  cases projected <;> rfl

theorem source?_withProjected (node : Node) (projected : Option (FieldSet × Bool)) :
    (node.withProjected projected).source? = node.source? := by
  rw [source?, source?, config_withProjected]

end Node

namespace View

variable {settings : QuerySettings} {view valid : View}

/-- The field sets of a view, of its nodes and of their sources have the index of their fields. -/
structure Indexed (view : View) : Prop where
  fields : view.fields.Indexed
  outputs : ∀ node ∈ view.scope, node.outputFields.Indexed
  sources : ∀ node ∈ view.scope, ∀ source, node.source? = some source → source.fields.Indexed

theorem indexed_scopeFields (h : ∀ node ∈ view.scope, node.outputFields.Indexed) :
    view.scopeFields.Indexed := by
  rw [scopeFields]
  split
  · exact FieldSet.indexed_empty
  · next output houtput =>
    split
    · exact h output (List.mem_of_find?_eq_some houtput)
    · cases hinput : output.inputs.head?.bind (Node.fieldsOf? view.scope) with
      | none => exact FieldSet.indexed_empty
      | some fields =>
        obtain ⟨input, -, hfields⟩ := Option.bind_eq_some_iff.1 hinput
        obtain ⟨node, hnode, rfl⟩ := Option.map_eq_some_iff.1 hfields
        exact h node (List.mem_of_find?_eq_some hnode)

theorem indexed_completed (h : view.Indexed) : view.completed.Indexed where
  fields := by
    rw [completed]
    dsimp only
    split
    · exact indexed_scopeFields h.outputs
    · exact h.fields
  outputs := h.outputs
  sources := h.sources

theorem Indexed.of_checked [Readers] (hview : view.Indexed)
    (h : view.checked settings = .ok valid) :
    valid.Indexed := by
  cases hatomic : view.isAtomic with
  | true =>
    rw [checked, check, if_pos hatomic] at h
    split at h
    · next heq =>
      obtain rfl := Except.ok.inj h
      obtain ⟨-, rfl⟩ := Prod.mk.inj heq
      exact ⟨hview.fields, hview.outputs, hview.sources⟩
    · cases h
  | false =>
    obtain ⟨after, hafter, hfields, rfl⟩ := completed_of_checked h hatomic
    refine indexed_completed ⟨hfields ▸ hview.fields, fun node hnode => ?_,
      fun node hnode source hsource => ?_⟩
    · obtain ⟨engine, scope, before, hbefore, projected, hcheck, rfl⟩ :=
        exists_check_of_mem hafter hnode
      exact Node.indexed_withProjected (hview.outputs before hbefore) hcheck
    · obtain ⟨engine, scope, before, hbefore, projected, -, rfl⟩ :=
        exists_check_of_mem hafter hnode
      rw [Node.source?_withProjected] at hsource
      exact hview.sources before hbefore source hsource

end View

/-! ### Columns that are given out -/

namespace Node

variable {settings : QuerySettings} {engine : Engine} {node : Node} {viewId : String}
  {filter : Option Filter} {distinct : Distinct} {source : View} {column : String}

theorem contains_of_checkView [Readers] {outputs : FieldSet}
    (h : checkView settings engine outputs filter distinct (some source) = .ok ())
    (hfields : source.fields.isEmpty = false) {field : Field} (hfield : field ∈ outputs.fields) :
    source.fields.contains field.sourceName = true := by
  cases hmissing : outputs.fields.find? fun field =>
      !source.fields.isEmpty && !source.fields.contains field.sourceName with
  | none => simpa [hfields] using List.find?_eq_none.1 hmissing field hfield
  | some other =>
    -- whatever was checked before, the missing field is refused at the end
    cases hdistinct : distinct.enabled <;>
      cases hunknown : distinct.fields.find? fun name => !outputs.contains name <;>
      cases filter <;>
      simp [checkView, hmissing, hdistinct, hunknown, Result.bind_eq_ok] at h

theorem contains_of_check [Readers] {scope : List Node} {projected : Option (FieldSet × Bool)}
    (h : node.check settings engine scope = .ok projected)
    (hconfig : (node.withProjected projected).config = .view viewId filter distinct (some source))
    (hfields : source.fields.isEmpty = false) {field : Field}
    (hfield : field ∈ (node.withProjected projected).outputFields.fields) :
    source.fields.contains field.sourceName = true := by
  obtain ⟨found, hfound, hprojected⟩ := Result.bind_eq_ok.1 h
  split at hprojected
  · obtain rfl : found = projected := Except.ok.inj hprojected
    have hbefore : node.config = .view viewId filter distinct (some source) :=
      (config_withProjected node found).symm.trans hconfig
    obtain ⟨rfl, -⟩ | ⟨expression, -, hsql, -⟩ := checkConfig_eq_ok hfound
    · rw [checkConfig, hbefore] at hfound
      obtain ⟨⟨⟩, hview, -⟩ := Result.map_eq_ok.1 hfound
      exact contains_of_checkView hview hfields hfield
    · cases hbefore.symm.trans hsql
  · cases hprojected

theorem exists_of_mem_listedColumns [Readers]
    (hconfig : node.config = .view viewId filter distinct (some source))
    (h : column ∈ node.listedColumns) :
    ∃ field ∈ node.outputFields.fields, field.sourceName = column := by
  rw [listedColumns_view hconfig] at h
  split at h
  · exact List.mem_map.1 h
  · rw [distinctColumns] at h
    split at h
    · next fields hfields =>
      obtain ⟨field, hfield, rfl⟩ := List.mem_map.1 h
      rw [Relation.distinctFields] at hfields
      split at hfields
      · obtain ⟨name, -, hname⟩ := Result.exists_of_mem_mapM_ok hfields hfield
        split at hname
        · next found hfound =>
          obtain rfl := Except.ok.inj hname
          exact ⟨found, FieldSet.mem_fields_of_get? hfound, rfl⟩
        · cases hname
      · obtain rfl := Except.ok.inj hfields
        exact absurd hfield List.not_mem_nil
    · exact absurd h List.not_mem_nil

/-- The field of the source by its column, as the `SELECT` list of a view node names it. -/
def Selects [Readers] (node : Node) (source : View) (field : Field) (column : String) : Prop :=
  ∃ listed ∈ node.listedColumns, source.fields.get? listed = some field ∧
    Sql.firstName? (Sql.quoteIdent listed) = some column

theorem Selects.eq_name [Readers] (hindexed : source.fields.Indexed) {field : Field}
    (h : node.Selects source field column) : column = field.name := by
  obtain ⟨listed, -, hfield, hcolumn⟩ := h
  rw [hindexed.name_of_get? hfield]
  exact Option.some.inj (hcolumn.symm.trans (Sql.firstName?_quoteIdent_self listed))

end Node

/-! ### Sort keys -/

theorem Query.get?_of_grant [Readers] {query : Query} {settings : QuerySettings} {fields : FieldSet}
    {grant : Grant} (hindexed : fields.Indexed) (h : query.grant settings fields = .ok grant)
    {name : String} {field : Field} (hget : grant.fields.get? name = some field) :
    fields.get? name = some field := by
  rw [Query.grant] at h
  split at h
  · obtain rfl := Except.ok.inj h
    exact hget
  · obtain ⟨-, h⟩ := Result.bind_unit_eq_ok.1 (Result.mapError_eq_ok.1 h)
    obtain rfl := Except.ok.inj h
    exact hindexed.get?_of_narrowedTo hget

namespace SqlRequest

variable {fields shown : FieldSet} {key : SortKey} {item column : String} {field : Field}

/-- The item of a key names a field that is shown. -/
theorem sortItems_singleton (h : sortItems shown [] [key] = .ok [item]) :
    ∃ field, shown.get? key.field = some field ∧ Sql.firstName? item = some field.name := by
  rw [sortItems] at h
  split at h
  · cases h
  split at h
  · cases h
  next direction _ =>
  rw [if_neg (by simp)] at h
  split at h
  · cases h
  next field hfield =>
  split at h
  · cases h
  · obtain ⟨items, -, heq⟩ := Result.map_eq_ok.1 h
    obtain ⟨rfl, -⟩ := List.cons.inj heq
    refine ⟨field, hfield, ?_⟩
    rw [String.append_assoc]
    exact Sql.firstName?_quoteIdent field.name (by simp)

/-- The field by its column, as the `ORDER BY` of a request names it. -/
def Orders (fields shown : FieldSet) (sort : List SortKey) (field : Field) (column : String) :
    Prop :=
  ∃ items, sortItems shown [] sort = .ok items ∧
    ∃ key ∈ sort, fields.get? key.field = some field ∧
      ∃ item ∈ items, sortItems shown [] [key] = .ok [item] ∧ Sql.firstName? item = some column

theorem Orders.eq_name {sort : List SortKey} (h : Orders fields shown sort field column)
    (hshown : ∀ name found, shown.get? name = some found → fields.get? name = some found) :
    column = field.name := by
  obtain ⟨items, -, key, -, hfield, item, -, hitem, hcolumn⟩ := h
  obtain ⟨found, hfound, hname⟩ := sortItems_singleton hitem
  obtain rfl := Option.some.inj (hfield.symm.trans (hshown _ _ hfound))
  exact Option.some.inj (hcolumn.symm.trans hname)

end SqlRequest

namespace SortClause

variable {fields : FieldSet} {field : Field} {path : String}

/-- The field by its path, as the order of a search names it. The key `__score` asks for the score,
whatever fields there are. -/
def Orders (fields : FieldSet) (sort : List SortKey) (field : Field) (path : String) : Prop :=
  ∃ clauses, ofKeys fields sort = .ok clauses ∧
    ∃ key ∈ sort, key.field ≠ "__score" ∧ fields.get? key.field = some field ∧
      ∃ clause ∈ clauses, ofKey fields key = .ok [clause] ∧ clause.field = path

theorem Orders.eq_name {sort : List SortKey} (htext : field.type.isText = false)
    (h : Orders fields sort field path) : path = field.name := by
  obtain ⟨clauses, -, key, -, hscore, hfield, clause, -, hclause, rfl⟩ := h
  rw [ofKey] at hclause
  split at hclause
  · cases hclause
  split at hclause
  · cases hclause
  simp only [hfield, ofField, htext, Bool.false_eq_true, if_false] at hclause
  split at hclause
  · cases hclause
  · obtain ⟨rfl, -⟩ := List.cons.inj (Except.ok.inj hclause)
    rfl

end SortClause

/-! ### Agreement -/

namespace View

variable {settings : QuerySettings} {view valid : View}

/-- What a checked view node lists are fields of its source, if these are known. -/
theorem exists_selects [Readers] (hchecked : view.checked settings = .ok valid)
    (hindexed : valid.Indexed) (hcustom : view.isAtomic = false) {node : Node}
    (hnode : node ∈ valid.scope) {viewId : String} {filter : Option Filter} {distinct : Distinct}
    {source : View} (hconfig : node.config = .view viewId filter distinct (some source))
    (hfields : source.fields.isEmpty = false) {listed : String}
    (hlisted : listed ∈ node.listedColumns) : ∃ field, node.Selects source field listed := by
  have hsource : source.fields.Indexed :=
    hindexed.sources node hnode source (by simp [Node.source?, hconfig])
  obtain ⟨output, houtput, hname⟩ := Node.exists_of_mem_listedColumns hconfig hlisted
  have hcontains : source.fields.contains listed = true := by
    obtain ⟨after, hafter, -, rfl⟩ := completed_of_checked hchecked hcustom
    obtain ⟨engine, scope, before, -, projected, hcheck, rfl⟩ := exists_check_of_mem hafter hnode
    exact hname ▸ Node.contains_of_check hcheck hconfig hfields houtput
  obtain ⟨field, hfield⟩ := Option.isSome_iff_exists.1 (hsource.isSome_get?.trans hcontains)
  exact ⟨field, listed, hlisted, hfield, Sql.firstName?_quoteIdent_self listed⟩

/-- **Both ways refer to a field by one name exactly if the field bears the name of its column.**
What a view node lists of its source and what it filters by, what a statement is ordered by and what
it is filtered by agree on those fields only. A search agrees on them, and in an atomic view on
every field; analysed text is left out. -/
theorem references_agree_iff [Readers] (hchecked : view.checked settings = .ok valid)
    (hindexed : view.Indexed) :
    (view.isAtomic = false → ∀ node ∈ valid.scope, ∀ viewId filter distinct source,
      node.config = .view viewId filter distinct (some source) →
      (source.fields.isEmpty = false →
        ∀ listed ∈ node.listedColumns, ∃ field, node.Selects source field listed) ∧
      ∀ field listed tested, node.Selects source field listed →
        Filter.Tests source.addressing source.fields filter field tested →
        (listed = tested ↔ field.sourceName = field.name)) ∧
    ∀ (query : Query) (grant : Grant), query.grant settings valid.fields = .ok grant →
      ∀ filter ∈ [query.filter, grant.filter],
        (∀ field ordered tested,
          SqlRequest.Orders valid.fields grant.fields query.sort field ordered →
          Filter.Tests valid.addressing valid.fields filter field tested →
          (ordered = tested ↔ field.sourceName = field.name)) ∧
        ∀ field ordered searched, field.type.isText = false →
          SortClause.Orders valid.fields query.sort field ordered →
          Filter.Searches valid.addressing valid.fields filter field searched →
          (ordered = searched ↔ valid.isAtomic = true ∨ field.sourceName = field.name) := by
  have hvalid := hindexed.of_checked hchecked
  refine ⟨fun hcustom node hnode viewId filter distinct source hconfig => ⟨?_, ?_⟩, ?_⟩
  · intro hfields listed hlisted
    exact exists_selects hchecked hvalid hcustom hnode hconfig hfields hlisted
  · intro field listed tested hselects htests
    have hsource : source.fields.Indexed :=
      hvalid.sources node hnode source (by simp [Node.source?, hconfig])
    rw [hselects.eq_name hsource, htests.eq_sourceName, eq_comm]
  · intro query grant hgrant filter _
    refine ⟨fun field ordered tested horders htests => ?_,
      fun field ordered searched htext horders hsearches => ?_⟩
    · rw [horders.eq_name fun name found => Query.get?_of_grant hvalid.fields hgrant,
        htests.eq_sourceName, eq_comm]
    · rw [horders.eq_name htext, hsearches.eq_path htext]
      cases hkind : valid.kind with
      | atomic => simp [addressing, isAtomic, Column.ofField, hkind]
      | custom => simp [addressing, isAtomic, Column.ofField, hkind, eq_comm]

/-- A user, who is written to another column. -/
def renamedUser : Field := { name := "user", originalName := "uid", type := .long }

/-- The seventh user. -/
def seventh : Filter := .leaf "user" "==" (.int 7)

/-- The people, by their users. -/
def people : View := { atomic "t" "people" .sql with fields := .ofList [renamedUser] }

/-- The node that reads the seventh user. -/
def userRead : Node where
  id := "rows"
  config := .view "t" (some seventh) {} (some people)
  outputFields := .ofList [.ofName "user" .long]

/-- The node that gives out what was read. -/
def userGiven : Node where
  id := "out"
  config := .output
  inputs := ["rows"]

/-- A view of the people, with the users renamed again. -/
def ofPeople : View where
  id := "users"
  kind := .custom
  engine := .sql
  fields := .ofList [renamedUser]
  scope := [userRead, userGiven]

/-- The seventh user, after all before. -/
def seventhInOrder : Query := {
  filter := some seventh
  sort := [{ field := "user", direction := some .asc }] }

theorem indexed_ofPeople : ofPeople.Indexed where
  fields := FieldSet.indexed_ofList _
  outputs node hnode := by
    rcases List.mem_pair.1 hnode with rfl | rfl
    · exact FieldSet.indexed_ofList _
    · exact FieldSet.indexed_empty
  sources node hnode source hsource := by
    rcases List.mem_pair.1 hnode with rfl | rfl
    · obtain rfl := Option.some.inj hsource
      exact FieldSet.indexed_ofList _
    · cases hsource

/-- The comparison that `seventh` makes. -/
def isSeventh (addressing : Addressing) : Comparison :=
  ⟨.ofField addressing renamedUser, .eq, "==", .int 7⟩

theorem compares_seventh (addressing : Addressing) :
    Filter.Compares addressing (.ofList [renamedUser]) (some seventh) renamedUser
      (isSeventh addressing) :=
  have hleaves : seventh.leaves = [(seventh, .eq)] := rfl
  ⟨seventh, rfl, (seventh, .eq), hleaves ▸ .head _, by decide, rfl, rfl⟩

theorem tests_seventh (addressing : Addressing) :
    Filter.Tests addressing (.ofList [renamedUser]) (some seventh) renamedUser "uid" := by
  have hpart : (isSeventh addressing).condition = .ok "\"uid\" = 7" := by
    cases addressing <;> decide +kernel
  exact ⟨isSeventh addressing, _, compares_seventh addressing, hpart,
    Comparison.firstName?_condition hpart⟩

theorem searches_seventh :
    Filter.Searches .bySource (.ofList [renamedUser]) (some seventh) renamedUser "uid" := by
  refine ⟨isSeventh .bySource, compares_seventh .bySource, ?_⟩
  have hclause : Clause.ofComparison (isSeventh .bySource) =
      Clause.single "term" (Clause.single "uid" (.int 7)) := rfl
  rw [hclause, Clause.looksAt_single (by decide), Clause.path?_single (by decide)]

/-- In a view that renames the users nothing agrees: neither what a node lists and tests, nor what a
statement is ordered by and tests, nor what a search is ordered by and looks at. -/
theorem references_agree_iff_renamed :
    (∃ listed tested, userRead.Selects people renamedUser listed ∧
      Filter.Tests people.addressing people.fields (some seventh) renamedUser tested ∧
      listed ≠ tested) ∧
    (∃ ordered tested, SqlRequest.Orders ofPeople.fields ofPeople.fields seventhInOrder.sort
        renamedUser ordered ∧
      Filter.Tests ofPeople.addressing ofPeople.fields seventhInOrder.filter renamedUser tested ∧
      ordered ≠ tested) ∧
    ∃ ordered searched,
      SortClause.Orders ofPeople.fields seventhInOrder.sort renamedUser ordered ∧
      Filter.Searches ofPeople.addressing ofPeople.fields seventhInOrder.filter renamedUser
        searched ∧
      ordered ≠ searched := by
  have hchecked : ofPeople.checked {} = .ok { ofPeople with isSingleSource := true } := rfl
  have hrenamed : renamedUser.sourceName ≠ renamedUser.name := by decide
  have hselects : userRead.Selects people renamedUser "user" :=
    ⟨"user", by decide, rfl, by decide +kernel⟩
  have horders : SqlRequest.Orders ofPeople.fields ofPeople.fields seventhInOrder.sort renamedUser
      "user" :=
    ⟨_, rfl, _, .head _, rfl, _, .head _, rfl, by decide +kernel⟩
  have hsorts : SortClause.Orders ofPeople.fields seventhInOrder.sort renamedUser "user" :=
    ⟨_, rfl, _, .head _, by decide, rfl, _, .head _, rfl, rfl⟩
  obtain ⟨hread, hrequest⟩ := references_agree_iff hchecked indexed_ofPeople
  obtain ⟨hordered, hsearched⟩ := hrequest seventhInOrder { fields := ofPeople.fields } rfl
    (some seventh) (.head _)
  refine ⟨⟨"user", "uid", hselects, tests_seventh _, fun heq => hrenamed ?_⟩,
    ⟨"user", "uid", horders, tests_seventh _, fun heq => hrenamed ?_⟩,
    ⟨"user", "uid", hsorts, searches_seventh, fun heq => ?_⟩⟩
  · exact ((hread rfl userRead (.head _) "t" (some seventh) {} people rfl).2 _ _ _ hselects
      (tests_seventh _)).1 heq
  · exact (hordered _ _ _ horders (tests_seventh _)).1 heq
  · rcases (hsearched _ _ _ rfl hsorts searches_seventh).1 heq with hatomic | hname
    · exact absurd hatomic Bool.false_ne_true
    · exact hrenamed hname

/-- The statement of the view reads one column and tests another. -/
example : ofPeople.toSql.map Prod.fst = .ok "SELECT \"user\" FROM people WHERE \"uid\" = 7" := by
  rfl

end View

end ViewCompiler
