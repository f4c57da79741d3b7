import ViewCompiler.Page.Basic
import ViewCompiler.Proofs.Field.FieldSet
import ViewCompiler.Proofs.Page.Document
import Mathlib.Data.Fintype.EquivFin
import ViewCompiler.Readers.Standard

/-!
# What a page shows under access rules

* `Query.MayShow`: the fields that a page may show: those that the rules grant, among them those
  that the caller names, if he names any.
* `Row.ConfinedTo`: a row shows these fields and metadata, and nothing else.
* `Query.Restricts`: the combinations of format, field scope and kind of view in which documents
  are cut down to the exposed fields.
* `Page.rows_confined_iff`: **the rows of all pages are confined exactly in these combinations.**
  Elsewhere a document passes through as it is, with or without rules.
-/

namespace ViewCompiler

/-- May a page show the field, if the access rules grant these fields? -/
def Query.MayShow (query : Query) (granted : FieldSet) (field : Field) : Prop :=
  field ∈ granted.fields ∧ (query.outputFields = [] ∨ field.name ∈ query.outputFields)

/-- The keys that tell where a document comes from and how well it matches. -/
def Exposure.metaKeys : List String := [indexKey, scoreKey]

/-- Does the row show fields that it may show, metadata, and nothing else? The keys of a flat row
name fields; the leaves of a document lie at the paths of fields or below them. -/
def Row.ConfinedTo (row : Row) (query : Query) (granted : FieldSet) : Prop :=
  match query.format with
  | .flat => ∀ key ∈ KeyMap.keys row,
      key ∈ Exposure.metaKeys ∨ ∃ field, query.MayShow granted field ∧ field.name = key
  | .original => ∀ leaf ∈ Row.leafPaths row,
      (∃ key ∈ Exposure.metaKeys, leaf = [key]) ∨
        ∃ field, query.MayShow granted field ∧ field.path <+: leaf

/-- Are documents cut down to the exposed fields, if all columns of the backend belong to the view
or not? -/
def Query.Restricts (query : Query) (view : View) (all : Prop) : Prop :=
  match query.format with
  | .flat => ¬all
  | .original => query.outputFields ≠ [] ∨ (view.isAtomic = false ∧ ¬all)

variable {query : Query} {view : View} {granted : FieldSet} {row : Row} {key : String}

/-! ### Exposures -/

namespace Exposure

variable {exposure : Exposure} {fields : FieldSet}

/-- Does the exposure hold fields that a page may show, and does it know whether they are named? -/
structure Within (exposure : Exposure) (query : Query) (granted : FieldSet) : Prop where
  indexed : exposure.fields.Indexed
  named : exposure.named = !query.outputFields.isEmpty
  mayShow : ∀ field ∈ exposure.fields.fields,
    ∃ shown, query.MayShow granted shown ∧ shown.name = field.name

theorem Within.withoutMeta (h : exposure.Within query granted) :
    exposure.withoutMeta.Within query granted :=
  ⟨h.indexed, h.named, h.mayShow⟩

end Exposure

theorem FieldSet.mem_push {set : FieldSet} {field other : Field}
    (h : other ∈ (set.push field).fields) : other = field ∨ other ∈ set.fields := by
  rw [push] at h
  split at h
  · exact .inr h
  · exact (List.mem_append.1 h).symm.imp_left List.mem_singleton.1

theorem FieldSet.foldl_push (fields : List Field) {set : FieldSet} (h : set.Indexed) :
    (fields.foldl push set).Indexed ∧
      ∀ field ∈ (fields.foldl push set).fields, field ∈ fields ∨ field ∈ set.fields := by
  induction fields generalizing set with
  | nil => exact ⟨h, fun _ => .inr⟩
  | cons first rest ih =>
    obtain ⟨hindexed, hmem⟩ := ih (h.push first)
    refine ⟨hindexed, fun field hfield => ?_⟩
    rcases hmem field hfield with hrest | hpush
    · exact .inl (List.mem_cons_of_mem _ hrest)
    · rcases mem_push hpush with rfl | hset
      · exact .inl List.mem_cons_self
      · exact .inr hset

namespace Exposure

variable {exposure : Exposure} {fields : FieldSet}

theorem named_ofNames (fields : FieldSet) (names : List String) :
    (ofNames fields names).named = !names.isEmpty := by
  rw [ofNames]
  split
  · next hempty => simp [hempty]
  · next hnamed => simpa using hnamed

/-- The wishes of the caller only take fields away. -/
theorem within_ofNames (hindexed : fields.Indexed)
    (hgranted : ∀ field ∈ fields.fields, ∃ shown ∈ granted.fields, shown.name = field.name) :
    (ofNames fields query.outputFields).Within query granted := by
  have hnames := named_ofNames fields query.outputFields
  by_cases hempty : query.outputFields.isEmpty = true
  · rw [ofNames, if_pos hempty] at hnames ⊢
    have hnone : query.outputFields = [] := List.isEmpty_iff.1 hempty
    refine ⟨hindexed, hnames, fun field hfield => ?_⟩
    obtain ⟨shown, hshown, hname⟩ := hgranted field hfield
    exact ⟨shown, ⟨hshown, .inl hnone⟩, hname⟩
  · rw [ofNames, if_neg hempty] at hnames ⊢
    obtain ⟨hpushed, hmem⟩ := FieldSet.foldl_push
      ((query.outputFields.filter fun name => name ≠ indexKey && name ≠ scoreKey).filterMap
        fields.get?) FieldSet.indexed_empty
    refine ⟨hpushed, hnames, fun field hfield => ?_⟩
    have hwanted := (hmem field hfield).resolve_right List.not_mem_nil
    obtain ⟨name, hname, hget⟩ := List.mem_filterMap.1 hwanted
    obtain rfl := hindexed.name_of_get? hget
    rw [hindexed.get?_eq] at hget
    obtain ⟨shown, hshown, heq⟩ := hgranted field (List.mem_of_find?_eq_some hget)
    exact ⟨shown, ⟨hshown, .inr (heq ▸ (List.mem_filter.1 hname).1)⟩, heq⟩

theorem Within.confined_shape (h : exposure.Within query granted) {document : Row}
    (hrestricts : query.Restricts view (view.fieldScope = .all))
    (hshape : exposure.shape view query.format document = .ok row) :
    row.ConfinedTo query granted := by
  rw [Query.Restricts] at hrestricts
  rw [Row.ConfinedTo]
  cases hformat : query.format with
  | flat =>
    simp only [hformat] at hrestricts ⊢
    rw [hformat, shape] at hshape
    rw [if_neg hrestricts] at hshape
    obtain rfl := Except.ok.inj hshape
    intro key hkey
    have hkept := Row.keeps_flattenWhere _ document key hkey
    obtain ⟨field, hfield, rfl⟩ := List.mem_map.1 (h.indexed.contains_iff.1 hkept)
    exact .inr (h.mayShow field hfield)
  | original =>
    simp only [hformat] at hrestricts ⊢
    -- each of the two ways to restrict a document closes the passage
    have hcut : ((view.isAtomic || view.fieldScope = .all) && !exposure.named) = false := by
      rw [h.named]
      rcases hrestricts with hnamed | ⟨hcustom, hdeclared⟩
      · simp [hnamed]
      · simp [hcustom, hdeclared]
    rw [hformat, shape, hcut] at hshape
    intro leaf hleaf
    obtain ⟨field, hfield, hstarts⟩ := Row.exists_field_of_leaf_pick hshape hleaf
    obtain ⟨shown, hshown, hname⟩ := h.mayShow field hfield
    -- the received field may have another type, but its path is its name
    have hpath : shown.path = field.path := by rw [Field.path, hname, Field.path]
    exact .inr ⟨shown, hshown, hpath ▸ hstarts⟩

/-- Where documents are not cut down, one with an empty column comes back as it is. -/
theorem shape_of_not_restricts (hnamed : exposure.named = !query.outputFields.isEmpty)
    (h : ¬query.Restricts view (view.fieldScope = .all)) (key : String) :
    exposure.shape view query.format [(key, .null)] = .ok [(key, .null)] := by
  rw [Query.Restricts] at h
  cases hformat : query.format with
  | flat =>
    simp only [hformat, not_not] at h
    simp [shape, h, Row.flatten, Row.flattenWhere, Row.assign, Row.collect, Row.put, KeyMap.insert]
  | original =>
    simp only [hformat, not_or, not_and_or, not_not, Bool.not_eq_false] at h
    obtain ⟨hnone, hpass⟩ := h
    rcases hpass with hatomic | hall
    · simp [shape, hnamed, hnone, hatomic]
    · simp [shape, hnamed, hnone, hall]

end Exposure

/-! ### Rows -/

namespace Row

theorem ConfinedTo.insert_meta (h : row.ConfinedTo query granted) (hkey : key ∈ Exposure.metaKeys)
    {value : Json} (hvalue : leafPathsAt value = [[]]) :
    ConfinedTo (KeyMap.insert row key value) query granted := by
  rw [ConfinedTo] at h ⊢
  cases hformat : query.format with
  | flat =>
    simp only [hformat] at h ⊢
    intro other hother
    rcases KeyMap.mem_keys_insert.1 hother with rfl | hother
    · exact .inl hkey
    · exact h other hother
  | original =>
    simp only [hformat] at h ⊢
    intro leaf hleaf
    rcases mem_leafPaths_insert hleaf with hleaf | ⟨rest, hrest, rfl⟩
    · exact h leaf hleaf
    · rw [hvalue, List.mem_singleton] at hrest
      exact .inl ⟨key, hkey, by rw [hrest]⟩

/-- A key that leads to no field and tells nothing about a document. -/
def Foreign (granted : FieldSet) (key : String) : Prop :=
  key ∉ Exposure.metaKeys ∧ ∀ field ∈ granted.fields, field.name ≠ key ∧ field.path ≠ [key]

theorem exists_foreign (granted : FieldSet) : ∃ key, Foreign granted key := by
  obtain ⟨key, hkey⟩ := Infinite.exists_notMem_finset
    (Exposure.metaKeys ++ granted.names ++ granted.fields.flatMap Field.path).toFinset
  simp only [List.mem_toFinset, List.mem_append, not_or] at hkey
  obtain ⟨⟨hmeta, hnames⟩, hpaths⟩ := hkey
  refine ⟨key, hmeta, fun field hfield => ⟨?_, fun hpath => hpaths ?_⟩⟩
  · rintro rfl
    exact hnames (List.mem_map_of_mem hfield)
  · exact List.mem_flatMap.2 ⟨field, hfield, hpath ▸ List.mem_singleton_self key⟩

theorem not_confinedTo (hkey : Foreign granted key) (hmem : KeyMap.get? row key = some .null) :
    ¬row.ConfinedTo query granted := by
  intro h
  obtain ⟨hmeta, hforeign⟩ := hkey
  rw [ConfinedTo] at h
  cases hformat : query.format with
  | flat =>
    simp only [hformat] at h
    rcases h key (KeyMap.mem_keys_of_get? hmem) with hkey | ⟨field, hshown, hname⟩
    · exact hmeta hkey
    · exact (hforeign field hshown.1).1 hname
  | original =>
    simp only [hformat] at h
    have hleaf : [key] ∈ leafPaths row :=
      mem_leafPaths.2 ⟨key, .null, KeyMap.mem_of_get? hmem, [], List.mem_singleton_self _, rfl⟩
    rcases h [key] hleaf with ⟨other, hother, heq⟩ | ⟨field, hshown, hstarts⟩
    · obtain rfl := List.singleton_inj.1 heq
      exact hmeta hother
    · -- a path is not empty, so that it leads to the leaf only if it is the same
      have hlength : field.path.length = 1 :=
        Nat.le_antisymm hstarts.length_le (List.length_pos_of_ne_nil field.path_ne_nil)
      exact (hforeign field hshown.1).2 (hstarts.eq_of_length hlength)

end Row

/-! ### Pages -/

namespace Page

variable {α : Type} {shape : α → Except RowError Row} {items : List α} {rows : List Row}

theorem exists_of_mem_shapeAll (h : shapeAll shape items = .ok rows) (hrow : row ∈ rows) :
    ∃ item ∈ items, shape item = .ok row := by
  rw [shapeAll, gather] at h
  split at h
  · obtain rfl := Except.ok.inj h
    obtain ⟨result, hresult, hok⟩ := List.mem_filterMap.1 hrow
    obtain ⟨item, hitem, rfl⟩ := List.mem_map.1 hresult
    refine ⟨item, hitem, ?_⟩
    cases hshape : shape item with
    | error => simp [hshape, Except.toOption] at hok
    | ok found => simpa [hshape, Except.toOption] using hok
  · exact absurd h (by simp)

theorem shapeAll_singleton (item : α) (row : Row) (h : shape item = .ok row) :
    shapeAll shape [item] = .ok [row] := by
  simp [shapeAll, gather, h, Except.toOption]

theorem indexed_of_merge [Readers] {fields : FieldSet} {max : Nat} {grant : Grant}
    (h : AccessRule.merge fields max query.rules = .ok grant) : grant.fields.Indexed := by
  obtain ⟨-, h⟩ := Result.bind_unit_eq_ok.1 h
  obtain rfl := Except.ok.inj h
  exact FieldSet.indexed_narrowedTo _ _

/-! #### Answers of search engines -/

theorem confined_hitRow {exposure : Exposure} (h : exposure.Within query granted)
    (hrestricts : query.Restricts view (view.fieldScope = .all)) {hit : Hit}
    (hrow : exposure.hitRow view query.format hit = .ok row) : row.ConfinedTo query granted := by
  rw [Exposure.hitRow] at hrow
  split at hrow
  · exact absurd hrow (by simp)
  · obtain ⟨shaped, hshaped, rfl⟩ := Result.map_eq_ok.1 hrow
    have hconfined := h.confined_shape hrestricts hshaped
    have hindex : Row.ConfinedTo (if exposure.withIndex then
        shaped.insert Exposure.indexKey (.string hit.index) else shaped) query granted := by
      split
      · exact hconfined.insert_meta (by simp [Exposure.metaKeys]) (by simp [Row.leafPathsAt])
      · exact hconfined
    dsimp only
    split
    · refine hindex.insert_meta (by simp [Exposure.metaKeys]) ?_
      cases hit.score <;> simp [Json.ofOption, Row.leafPathsAt]
    · exact hindex

theorem confined_ofSearch (hindexed : granted.Indexed)
    (hrestricts : query.Restricts view (view.fieldScope = .all)) {answer : SearchAnswer}
    {total : Option Nat} {page : Page} (hpage : ofSearch view granted query answer total = .ok page)
    (hrow : row ∈ page.rows) : row.ConfinedTo query granted := by
  obtain ⟨rows, hrows, hpage⟩ := Result.bind_eq_ok.1 hpage
  obtain rfl := Except.ok.inj hpage
  obtain ⟨hit, -, hhit⟩ := exists_of_mem_shapeAll hrows hrow
  have hwithin : (Exposure.ofNames granted query.outputFields).Within query granted :=
    Exposure.within_ofNames hindexed fun field hfield => ⟨field, hfield, rfl⟩
  exact confined_hitRow hwithin hrestricts hhit

/-- Where documents pass through, a foreign column of a hit gets into its row. -/
theorem exists_hitRow {exposure : Exposure} (hnamed : exposure.named = !query.outputFields.isEmpty)
    (h : ¬query.Restricts view (view.fieldScope = .all)) (hkey : key ∉ Exposure.metaKeys) :
    ∃ row, exposure.hitRow view query.format { source := some [(key, .null)] } = .ok row ∧
      KeyMap.get? row key = some .null := by
  have hindex : Exposure.indexKey ≠ key := fun heq => hkey (by simp [Exposure.metaKeys, heq])
  have hscore : Exposure.scoreKey ≠ key := fun heq => hkey (by simp [Exposure.metaKeys, heq])
  have hshape := Exposure.shape_of_not_restricts hnamed h key
  refine ⟨_, by simp only [Exposure.hitRow, hshape, Except.map]; rfl, ?_⟩
  split_ifs <;> simp only [KeyMap.get?_insert, KeyMap.get?_cons, hindex, hscore, ↓reduceIte]

theorem exists_ofSearch_not_confined (h : ¬query.Restricts view (view.fieldScope = .all))
    (granted : FieldSet) :
    ∃ answer total page, ofSearch view granted query answer total = .ok page ∧
      ∃ row ∈ page.rows, ¬row.ConfinedTo query granted := by
  obtain ⟨key, hkey⟩ := Row.exists_foreign granted
  obtain ⟨row, hrow, hget⟩ := exists_hitRow
    (Exposure.named_ofNames granted query.outputFields) h hkey.1
  refine ⟨{ hits := [{ source := some [(key, .null)] }] }, none, ?_⟩
  rw [ofSearch, shapeAll_singleton _ row hrow]
  exact ⟨_, rfl, row, List.mem_singleton_self row, Row.not_confinedTo hkey hget⟩

/-! #### Answers of the gateway -/

section Gateway

variable {fields : FieldSet} {columns : List SqlColumn}

theorem received_fieldScope :
    (received view query columns).fieldScope = .all ↔
      view.fieldScope = .all ∨ query.callerSql?.isSome = true := by
  rw [received]
  split
  · next hall => simpa using hall
  · next hdeclared =>
    simp only [Bool.or_eq_true, decide_eq_true_eq] at hdeclared
    split <;> simp_all

theorem received_isAtomic : (received view query columns).isAtomic = view.isAtomic := by
  rw [received]
  split
  · rfl
  · split <;> rfl

/-- A statement of the caller opens the field scope. -/
theorem restricts_received :
    query.Restricts (received view query columns)
        ((received view query columns).fieldScope = .all) ↔
      query.Restricts view (view.fieldScope = .all ∨ query.callerSql?.isSome = true) := by
  rw [Query.Restricts, Query.Restricts, received_fieldScope, received_isAtomic]

/-- Under access rules, what is visible of the fields of an answer bears names of granted fields. -/
theorem granted_of_visible (view : View) (hrules : query.rules ≠ [])
    (hindexed : fields.Indexed) :
    (visible view query fields).Indexed ∧
      ∀ field ∈ (visible view query fields).fields,
        ∃ shown ∈ fields.fields, shown.name = field.name := by
  have hnarrowed {set : FieldSet} {names : List String} {field : Field}
      (hfield : field ∈ (set.narrowedTo names).fields) : field ∈ set.fields ∧ field.name ∈ names :=
    (List.mem_filter.1 hfield).imp_right List.contains_iff_mem.1
  rw [visible]
  split
  · -- fields of the columns: they are not granted themselves, but their names are
    rw [if_neg (by simpa using hrules)]
    refine ⟨FieldSet.indexed_narrowedTo _ _, fun field hfield => ?_⟩
    exact List.mem_map.1 (hnarrowed hfield).2
  · split
    · exact ⟨FieldSet.indexed_narrowedTo _ _, fun field hfield =>
        ⟨field, (hnarrowed hfield).1, rfl⟩⟩
    · exact ⟨hindexed, fun field hfield => ⟨field, hfield, rfl⟩⟩

theorem confined_ofSql (hrules : query.rules ≠ []) (hindexed : granted.Indexed)
    (hrestricts : query.Restricts view
      (view.fieldScope = .all ∨ query.callerSql?.isSome = true))
    {answer : SqlAnswer} {total : Option Nat} {page : Page}
    (hpage : (ofSql view granted query answer total).1 = .ok page) (hrow : row ∈ page.rows) :
    row.ConfinedTo query granted := by
  obtain ⟨rows, hrows, rfl⟩ := Result.map_eq_ok.1 hpage
  obtain ⟨values, -, hshape⟩ := exists_of_mem_shapeAll hrows hrow
  obtain ⟨document, -, hshape⟩ := Result.bind_eq_ok.1 hshape
  obtain ⟨hvisible, hgranted⟩ :=
    granted_of_visible (received view query answer.columns) hrules hindexed
  exact (Exposure.within_ofNames hvisible hgranted).withoutMeta.confined_shape
    (restricts_received.2 hrestricts) hshape

theorem ofSql_singleton (key : String) :
    Row.ofSql (received view query [⟨key, ""⟩]) [⟨key, ""⟩] (.array [.null]) =
      .ok [(key, .null)] := by
  rw [Row.ofSql, Except.ok.injEq]
  split
  · next hall =>
    have hopen : (view.fieldScope = .all || query.callerSql?.isSome) = true := by
      simpa using received_fieldScope.1 hall
    rw [received, if_pos hopen]
    rfl
  · rfl

theorem exists_ofSql_not_confined
    (h : ¬query.Restricts view (view.fieldScope = .all ∨ query.callerSql?.isSome = true))
    (granted : FieldSet) :
    ∃ answer total page, (ofSql view granted query answer total).1 = .ok page ∧
      ∃ row ∈ page.rows, ¬row.ConfinedTo query granted := by
  obtain ⟨key, hkey⟩ := Row.exists_foreign granted
  have hget : KeyMap.get? [(key, Json.null)] key = some .null := by simp [KeyMap.get?_cons]
  refine ⟨{ columns := [⟨key, ""⟩], rows := [.array [.null]] }, none, ?_⟩
  rw [ofSql, shapeAll_singleton _ [(key, .null)] ?_]
  · exact ⟨_, rfl, _, List.mem_singleton_self _, Row.not_confinedTo hkey hget⟩
  · rw [ofSql_singleton]
    exact Exposure.shape_of_not_restricts (Exposure.named_ofNames _ _)
      (fun hrestricts => h (restricts_received.1 hrestricts)) key

end Gateway

/-- **The rows of all pages of a query with access rules are confined to the granted fields exactly
if the query restricts documents.** Flat rows are cut down unless all columns of the backend belong
to the view. Documents are cut down if the caller names fields, or if the view is custom and not all
columns belong to it. Under a statement of the caller all columns of the gateway do. -/
theorem rows_confined_iff [Readers] {max : Nat} {grant : Grant} (hrules : query.rules ≠ [])
    (hmerge : AccessRule.merge view.fields max query.rules = .ok grant) :
    ((∀ answer total page, ofSearch view grant.fields query answer total = .ok page →
        ∀ row ∈ page.rows, row.ConfinedTo query grant.fields) ↔
      query.Restricts view (view.fieldScope = .all)) ∧
    ((∀ answer total page, (ofSql view grant.fields query answer total).1 = .ok page →
        ∀ row ∈ page.rows, row.ConfinedTo query grant.fields) ↔
      query.Restricts view (view.fieldScope = .all ∨ query.callerSql?.isSome = true)) := by
  have hindexed := indexed_of_merge hmerge
  refine ⟨⟨fun h => ?_, fun hrestricts answer total page hpage row hrow => ?_⟩,
    ⟨fun h => ?_, fun hrestricts answer total page hpage row hrow => ?_⟩⟩
  · by_contra hpass
    obtain ⟨answer, total, page, hpage, row, hrow, hleak⟩ :=
      exists_ofSearch_not_confined hpass grant.fields
    exact hleak (h answer total page hpage row hrow)
  · exact confined_ofSearch hindexed hrestricts hpage hrow
  · by_contra hpass
    obtain ⟨answer, total, page, hpage, row, hrow, hleak⟩ :=
      exists_ofSql_not_confined hpass grant.fields
    exact hleak (h answer total page hpage row hrow)
  · exact confined_ofSql hrules hindexed hrestricts hpage hrow

/-- An atomic view with a field that `nameOnly` does not grant. -/
def ofPeople : View where
  id := "people"
  fields := .ofList [.ofName "name" .keyword, .ofName "salary" .long]

/-- A query for whole documents under a rule that grants one field. -/
def nameOnly : Query where
  format := .original
  rules := [{ fields := ["name"] }]

theorem rows_confined_iff_nameOnly :
    nameOnly.rules ≠ [] ∧
      ∃ grant, AccessRule.merge ofPeople.fields 10 nameOnly.rules = .ok grant ∧
        grant.fields.names = ["name"] ∧
        ¬∀ answer total page, ofSearch ofPeople grant.fields nameOnly answer total = .ok page →
          ∀ row ∈ page.rows, row.ConfinedTo nameOnly grant.fields := by
  have hmerge : AccessRule.merge ofPeople.fields 10 nameOnly.rules = .ok _ := rfl
  refine ⟨by simp [nameOnly], _, hmerge, rfl, fun h => ?_⟩
  have hrestricts := (rows_confined_iff (by simp [nameOnly]) hmerge).1.1 h
  simp [Query.Restricts, nameOnly, ofPeople, View.isAtomic] at hrestricts

end Page

end ViewCompiler
