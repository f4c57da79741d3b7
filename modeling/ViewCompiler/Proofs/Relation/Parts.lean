import ViewCompiler.Proofs.Field.FieldSet
import ViewCompiler.Proofs.Result
import ViewCompiler.Relation.Basic

/-!
# When the parts of a statement come about

The check of a scope leaves some faults to the compilation.  `Decides` relates a part of the
compilation to the condition under which it succeeds; if it does not, it fails with such a fault.
There is one lemma for each function that writes a part of a statement.

* `NodeFault.Deferred`: the faults that a check leaves to the compilation.
* `Template.fill_spec`: a text is filled in if every placeholder is resolved.
* `Relation.decides_ofView`, `decides_ofJoin`, `decides_unionBranch`, `decides_ofUnion`,
  `decides_ofExpression`: **the conditions of the relations of the nodes**.
* `Relation.ofView_eq_ok`, `ofJoin_eq_ok`, `fields_ofUnion`, `fields_ofExpression`: what relations
  look like that have come about.
-/

namespace ViewCompiler

/-- The faults of a node that are not found before it is compiled. -/
def NodeFault.Deferred : NodeFault → Prop
  | noTable | filter _ | distinctField _ | leftField .. | rightField .. | mappedField .. => True
  | template (.unknownNode _) => True
  | _ => False

/-- The computation succeeds under the condition, and otherwise fails with a deferred fault. -/
def Decides {α : Type} (result : Except NodeFault α) (condition : Prop) : Prop :=
  match result with
  | .ok _ => condition
  | .error fault => ¬condition ∧ fault.Deferred

namespace Decides

variable {α β : Type} {result : Except NodeFault α} {next : α → Except NodeFault β}
  {condition condition' : Prop}

theorem congr (h : Decides result condition) (hiff : condition ↔ condition') :
    Decides result condition' := by
  rwa [← propext hiff]

theorem bind (h : Decides result condition)
    (hnext : ∀ value, result = .ok value → Decides (next value) condition') :
    Decides (result >>= next) (condition ∧ condition') := by
  cases result with
  | error fault => exact ⟨fun hboth => h.1 hboth.1, h.2⟩
  | ok value =>
    have hvalue := hnext value rfl
    change Decides (next value) _
    cases hresult : next value with
    | error fault =>
      rw [hresult] at hvalue
      exact ⟨fun hboth => hvalue.1 hboth.2, hvalue.2⟩
    | ok => exact ⟨h, by rwa [hresult] at hvalue⟩

theorem pure (value : α) : Decides (Pure.pure value : Except NodeFault α) True := trivial

theorem map {f : α → β} (h : Decides result condition) : Decides (result.map f) condition := by
  cases result <;> exact h

theorem mapM {items : List α} {f : α → Except NodeFault β} {holds : α → Prop}
    (h : ∀ item ∈ items, Decides (f item) (holds item)) :
    Decides (items.mapM f) (∀ item ∈ items, holds item) := by
  induction items with
  | nil => exact fun _ hmem => absurd hmem List.not_mem_nil
  | cons item rest ih =>
    rw [List.forall_mem_cons] at h
    rw [List.mapM_cons]
    refine (h.1.bind fun _ _ => (ih h.2).bind fun _ _ => pure _).congr ?_
    rw [and_true, List.forall_mem_cons]

end Decides

/-! ### Texts with placeholders -/

namespace Template

/-- If a text can be filled in at all, it is filled in unless one of its placeholders is not
resolved, and that is the error then. -/
theorem fill_spec (resolve : String → Except TemplateError String)
    {dummy : String → Except TemplateError String} (hdummy : ∀ id, ∃ text, dummy id = .ok text)
    {fuel : Nat} {cs text : List Char} (h : (fill dummy fuel cs).2 = .ok text) :
    match (fill resolve fuel cs).2 with
    | .ok _ => ∀ id ∈ (fill dummy fuel cs).1, ∃ text, resolve id = .ok text
    | .error error => ∃ id ∈ (fill dummy fuel cs).1, resolve id = .error error := by
  induction fuel generalizing cs text with
  | zero => simp [fill]
  | succ fuel ih =>
    rw [fill] at h
    rw [fill, fill]
    cases hcut : cut? cs with
    | none =>
      simp only [hcut] at h ⊢
      cases hbad : malformed? cs.length cs with
      | some error => simp [hbad] at h
      | none => simp
    | some cut =>
      -- where the text is cut, and whether it is malformed before, does not depend on the resolver
      simp only [hcut] at h ⊢
      cases hbad : malformed? cut.gap.length cs with
      | some error => simp [hbad] at h
      | none =>
        obtain ⟨given, hgiven⟩ := hdummy (String.ofList cut.id)
        simp only [hbad, hgiven] at h ⊢
        obtain ⟨rest, hrest, -⟩ := Result.map_eq_ok.1 h
        cases hresolve : resolve (String.ofList cut.id) with
        | error error => exact ⟨_, List.mem_cons_self, hresolve⟩
        | ok found =>
          have hih := ih hrest
          cases hfill : (fill resolve fuel cut.rest).2 with
          | error error =>
            rw [hfill] at hih
            obtain ⟨id, hid, herror⟩ := hih
            exact ⟨id, List.mem_cons_of_mem _ hid, herror⟩
          | ok text =>
            rw [hfill] at hih
            exact List.forall_mem_cons.2 ⟨⟨found, hresolve⟩, hih⟩

theorem render_spec (resolve : String → Except TemplateError String)
    {dummy : String → Except TemplateError String} (hdummy : ∀ id, ∃ text, dummy id = .ok text)
    {template text : String} (h : render dummy template = .ok text) :
    match render resolve template with
    | .ok _ => ∀ id ∈ asked dummy template, ∃ text, resolve id = .ok text
    | .error error => ∃ id ∈ asked dummy template, resolve id = .error error := by
  obtain ⟨filled, hfilled, -⟩ := Result.map_eq_ok.1 h
  have hspec := fill_spec resolve hdummy hfilled
  rw [render]
  cases hfill : (fill resolve (template.toList.length + 1) template.toList).2 <;>
    rwa [hfill] at hspec

end Template

/-! ### Filters and columns -/

/-- A filter has an SQL condition over the fields; an empty one needs none. -/
def Filter.Renders (addressing : Addressing) (fields : FieldSet) (filter : Option Filter) : Prop :=
  ∀ present, nonEmpty? filter = some present → ∃ predicate condition,
    Predicate.ofFilter addressing fields present = .ok predicate ∧
      predicate.condition = .ok condition

theorem Filter.renders_iff {addressing : Addressing} {fields : FieldSet}
    {filter : Option Filter} :
    Renders addressing fields filter ↔
      ∃ condition, condition? addressing fields filter = .ok condition := by
  rw [Renders, condition?]
  cases nonEmpty? filter with
  | none => simp
  | some present =>
    simp only [Result.bind_eq_ok, Option.some.injEq, forall_eq']
    constructor
    · rintro ⟨predicate, condition, hpredicate, hcondition⟩
      exact ⟨some condition, predicate, hpredicate, condition, hcondition, rfl⟩
    · rintro ⟨-, predicate, hpredicate, condition, hcondition, -⟩
      exact ⟨predicate, condition, hpredicate, hcondition⟩

namespace Relation

theorem decides_condition (addressing : Addressing) (fields : FieldSet) (filter : Option Filter) :
    Decides (condition addressing fields filter) (Filter.Renders addressing fields filter) := by
  rw [condition]
  cases hcondition : Filter.condition? addressing fields filter with
  | ok condition => exact Filter.renders_iff.2 ⟨condition, hcondition⟩
  | error cause =>
    refine ⟨fun hrenders => ?_, trivial⟩
    obtain ⟨condition, hok⟩ := Filter.renders_iff.1 hrenders
    simp [hcondition] at hok

theorem decides_distinctField {outputs : FieldSet} (houtputs : outputs.Indexed) (name : String) :
    Decides (match outputs.get? name with
      | some field => Except.ok field
      | none => .error (.distinctField name)) (name ∈ outputs.names) := by
  rw [← houtputs.contains_iff, ← houtputs.isSome_get?]
  cases outputs.get? name with
  | some field => exact rfl
  | none => exact ⟨Bool.false_ne_true, trivial⟩

theorem decides_distinctFields {outputs : FieldSet} (houtputs : outputs.Indexed)
    (distinct : Distinct) :
    Decides (distinctFields outputs distinct)
      (distinct.enabled = true → ∀ name ∈ distinct.fields, name ∈ outputs.names) := by
  rw [distinctFields]
  cases henabled : distinct.enabled with
  | false => exact fun h => absurd h Bool.false_ne_true
  | true =>
    simp only [↓reduceIte]
    refine (Decides.mapM fun name _ => decides_distinctField houtputs name).congr ?_
    -- no listed field stands for all of them
    cases distinct.fields <;> simp

theorem decides_projection {outputs : FieldSet} (houtputs : outputs.Indexed) (distinct : Distinct)
    (usual : String) :
    Decides (projection outputs distinct usual)
      (distinct.enabled = true → ∀ name ∈ distinct.fields, name ∈ outputs.names) :=
  (decides_distinctFields houtputs distinct).map

/-! ### The relations of the nodes -/

/-- The fields of a relation are found under the names of the given ones. -/
structure Named (fields outputs : FieldSet) : Prop where
  indexed : fields.Indexed
  names : fields.names = outputs.names

theorem named_self {outputs : FieldSet} (houtputs : outputs.Indexed) : Named outputs outputs :=
  ⟨houtputs, rfl⟩

theorem named_renamed (outputs : FieldSet) : Named (renamed outputs) outputs where
  indexed := FieldSet.indexed_ofList _
  names := by simp [renamed, FieldSet.names, FieldSet.ofList]

theorem Named.isSome_get? {fields outputs : FieldSet} (h : Named fields outputs) {name : String} :
    (fields.get? name).isSome = true ↔ name ∈ outputs.names := by
  rw [h.indexed.isSome_get?, h.indexed.contains_iff, h.names]

theorem decides_ofView {outputs : FieldSet} (houtputs : outputs.Indexed) (viewId : String)
    (filter : Option Filter) (distinct : Distinct) (source : View) :
    Decides (ofView outputs viewId filter distinct (some source))
      ((source.metaTableName ≠ "" ∨ source.technicalName ≠ "") ∧
        (distinct.enabled = true → ∀ name ∈ distinct.fields, name ∈ outputs.names) ∧
        Filter.Renders source.addressing source.fields filter) := by
  have htable : source.table?.isSome = true ↔
      (source.metaTableName ≠ "" ∨ source.technicalName ≠ "") := by
    simp [View.table?]
  rw [ofView]
  cases hfound : source.table? with
  | none =>
    refine ⟨fun h => ?_, trivial⟩
    have := htable.2 h.1
    simp [hfound] at this
  | some table =>
    refine Decides.congr ((decides_projection houtputs distinct (listed outputs)).bind fun _ _ =>
      (decides_condition source.addressing source.fields filter).bind fun _ _ => .pure _) ?_
    simp [← htable, hfound]

theorem withCondition_append (sql text : String) (condition : Option String) :
    ∃ rest, withCondition (sql ++ text) condition = sql ++ rest := by
  cases condition with
  | none => exact ⟨text, rfl⟩
  | some condition =>
    refine ⟨text ++ " WHERE " ++ condition, ?_⟩
    simp only [withCondition, String.append_assoc]

/-- The relation of a view node has the fields of the node, and its statement starts with the
columns. -/
theorem ofView_eq_ok {outputs : FieldSet} {viewId : String} {filter : Option Filter}
    {distinct : Distinct} {source : Option View} {relation : Relation}
    (h : ofView outputs viewId filter distinct source = .ok relation) :
    relation.fields = outputs ∧ ∃ columns rest,
      projection outputs distinct (listed outputs) = .ok columns ∧
        relation.sql = "SELECT " ++ columns ++ " FROM " ++ rest := by
  cases source with
  | none => cases h
  | some source =>
    rw [ofView] at h
    split at h
    · cases h
    simp only [Result.bind_eq_ok] at h
    obtain ⟨columns, hcolumns, condition, -, hrelation⟩ := h
    obtain rfl := Except.ok.inj hrelation
    obtain ⟨rest, hrest⟩ := withCondition_append _ _ condition
    exact ⟨rfl, columns, rest, hcolumns, hrest⟩

theorem named_ofView {outputs : FieldSet} (houtputs : outputs.Indexed) {viewId : String}
    {filter : Option Filter} {distinct : Distinct} {source : View} {relation : Relation}
    (h : ofView outputs viewId filter distinct (some source) = .ok relation) :
    Named relation.fields outputs := by
  rw [(ofView_eq_ok h).1]
  exact named_self houtputs

theorem decides_joinCondition {left right leftOutputs rightOutputs : FieldSet}
    (hleft : Named left leftOutputs) (hright : Named right rightOutputs) (leftId rightId : String)
    (key : JoinKey) :
    Decides (joinCondition left right leftId rightId key)
      (key.left ∈ leftOutputs.names ∧ key.right ∈ rightOutputs.names) := by
  rw [← hleft.isSome_get?, ← hright.isSome_get?, joinCondition]
  cases left.get? key.left with
  | none => exact ⟨by simp, trivial⟩
  | some l =>
    cases right.get? key.right with
    | none => exact ⟨by simp, trivial⟩
    | some r => exact ⟨rfl, rfl⟩

theorem decides_ofJoin {outputs leftOutputs rightOutputs : FieldSet} {left right : Relation}
    (houtputs : outputs.Indexed) (hleft : Named left.fields leftOutputs)
    (hright : Named right.fields rightOutputs) (kind : JoinKind) (keys : List JoinKey)
    (filter : Option Filter) (distinct : Distinct) (leftId rightId : String) :
    Decides (ofJoin outputs kind keys filter distinct leftId rightId left right)
      ((∀ key ∈ keys, key.left ∈ leftOutputs.names ∧ key.right ∈ rightOutputs.names) ∧
        (distinct.enabled = true → ∀ name ∈ distinct.fields, name ∈ outputs.names) ∧
        Filter.Renders .bySource outputs filter) := by
  rw [ofJoin]
  refine Decides.congr ((Decides.mapM fun key _ => decides_joinCondition hleft hright _ _ key).bind
    fun _ _ => (decides_projection houtputs distinct "*").bind fun _ _ =>
      (decides_condition .bySource outputs filter).bind fun _ _ => .pure _) ?_
  rw [and_true]

theorem ofJoin_eq_ok {outputs : FieldSet} {kind : JoinKind} {keys : List JoinKey}
    {filter : Option Filter} {distinct : Distinct} {leftId rightId : String}
    {left right relation : Relation}
    (h : ofJoin outputs kind keys filter distinct leftId rightId left right = .ok relation) :
    relation.fields = outputs ∧ ∃ columns rest, projection outputs distinct "*" = .ok columns ∧
      relation.sql = "SELECT " ++ columns ++ " FROM " ++ rest := by
  simp only [ofJoin, Result.bind_eq_ok] at h
  obtain ⟨conditions, -, columns, hcolumns, condition, -, hrelation⟩ := h
  obtain rfl := Except.ok.inj hrelation
  obtain ⟨rest, hrest⟩ := withCondition_append ("SELECT " ++ columns ++ " FROM ")
    ("(" ++ left.sql ++ ") AS lft " ++ kind.keyword ++ " JOIN (" ++ right.sql ++ ") AS rgt ON " ++
      Text.join " AND " conditions) condition
  refine ⟨rfl, columns, rest, hcolumns, ?_⟩
  rw [← hrest]
  simp only [String.append_assoc]
  rfl

theorem named_ofJoin {outputs : FieldSet} (houtputs : outputs.Indexed) {kind : JoinKind}
    {keys : List JoinKey} {filter : Option Filter} {distinct : Distinct} {leftId rightId : String}
    {left right relation : Relation}
    (h : ofJoin outputs kind keys filter distinct leftId rightId left right = .ok relation) :
    Named relation.fields outputs := by
  rw [(ofJoin_eq_ok h).1]
  exact named_self houtputs

theorem decides_unionColumn {fields outputs : FieldSet} (hfields : Named fields outputs)
    (input : String) (output : Field) (column : UnionColumn) :
    Decides (unionColumn input fields output column)
      (column.isConstant = false → column.field ∈ outputs.names) := by
  rw [← hfields.isSome_get?, unionColumn]
  cases hconst : column.isConstant with
  | true => exact fun h => absurd h.symm Bool.false_ne_true
  | false =>
    simp only [Bool.false_eq_true, ↓reduceIte]
    cases fields.get? column.field with
    | none => exact ⟨fun h => absurd (h trivial) Bool.false_ne_true, trivial⟩
    | some source => exact fun _ => rfl

theorem decides_unionBranch {outputs inputOutputs : FieldSet} {relation : Relation}
    (hrelation : Named relation.fields inputOutputs) (number : Nat) (input : String)
    {columns : List UnionColumn} (hlength : columns.length = outputs.size) :
    Decides (unionBranch outputs number input columns relation)
      (∀ column ∈ columns, column.isConstant = false → column.field ∈ inputOutputs.names) := by
  rw [unionBranch]
  refine Decides.congr ((Decides.mapM fun entry _ =>
    decides_unionColumn hrelation input entry.1 entry.2).bind fun _ _ => .pure _) ?_
  have hcolumns : (outputs.fields.zip columns).map Prod.snd = columns :=
    List.map_snd_zip (by rw [hlength, FieldSet.size])
  simp only [and_true]
  conv => rhs; rw [← hcolumns]
  rw [List.forall_mem_map]

theorem decides_ofUnion (outputs : FieldSet) (kind : UnionKind) (filter : Option Filter)
    (branches : List String) :
    Decides (ofUnion outputs kind filter branches)
      (Filter.Renders .bySource (renamed outputs) filter) := by
  rw [ofUnion]
  refine Decides.congr ((decides_condition .bySource (renamed outputs) filter).bind fun _ _ =>
    .pure _) ?_
  rw [and_true]

theorem fields_ofUnion {outputs : FieldSet} {kind : UnionKind} {filter : Option Filter}
    {branches : List String} {relation : Relation}
    (h : ofUnion outputs kind filter branches = .ok relation) :
    relation.fields = renamed outputs := by
  simp only [ofUnion, Result.bind_eq_ok] at h
  obtain ⟨_, -, hrelation⟩ := h
  exact Except.ok.inj hrelation ▸ rfl

theorem named_ofUnion {outputs : FieldSet} {kind : UnionKind} {filter : Option Filter}
    {branches : List String} {relation : Relation}
    (h : ofUnion outputs kind filter branches = .ok relation) : Named relation.fields outputs :=
  fields_ofUnion h ▸ named_renamed outputs

theorem mem_of_placeholderSql {relations : List (String × Relation)} {id : String}
    (h : ∃ text, placeholderSql relations id = .ok text) : id ∈ relations.map Prod.fst := by
  obtain ⟨text, h⟩ := h
  rw [placeholderSql] at h
  cases hfind : relations.find? fun entry => entry.1 = id with
  | none => simp [hfind] at h
  | some entry =>
    have hname : entry.1 = id := by simpa using List.find?_some hfind
    exact List.mem_map.2 ⟨entry, List.mem_of_find?_eq_some hfind, hname⟩

theorem decides_ofExpression {outputs : FieldSet} {expression text : String}
    (hrender : Template.render (fun id => .ok (Sql.quoteIdent id)) expression = .ok text)
    (relations : List (String × Relation)) :
    Decides (ofExpression outputs expression relations)
      (∀ id ∈ Template.asked (fun id => .ok (Sql.quoteIdent id)) expression,
        id ∈ relations.map Prod.fst) := by
  have hspec := Template.render_spec (placeholderSql relations) (fun _ => ⟨_, rfl⟩) hrender
  rw [ofExpression]
  cases hfilled : Template.render (placeholderSql relations) expression with
  | ok =>
    rw [hfilled] at hspec
    exact fun id hid => mem_of_placeholderSql (hspec id hid)
  | error cause =>
    rw [hfilled] at hspec
    obtain ⟨id, hid, hcause⟩ := hspec
    cases hfind : relations.find? fun entry => entry.1 = id with
    | some entry => simp [placeholderSql, hfind] at hcause
    | none =>
      simp only [placeholderSql, hfind, Except.error.injEq] at hcause
      subst hcause
      refine ⟨fun h => ?_, trivial⟩
      obtain ⟨entry, hentry, hname⟩ := List.mem_map.1 (h id hid)
      exact List.find?_eq_none.1 hfind entry hentry (decide_eq_true hname)

theorem fields_ofExpression {outputs : FieldSet} {expression : String}
    {relations : List (String × Relation)} {relation : Relation}
    (h : ofExpression outputs expression relations = .ok relation) :
    relation.fields = renamed outputs := by
  rw [ofExpression] at h
  split at h
  · cases h
  · exact Except.ok.inj h ▸ rfl

theorem named_ofExpression {outputs : FieldSet} {expression : String}
    {relations : List (String × Relation)} {relation : Relation}
    (h : ofExpression outputs expression relations = .ok relation) :
    Named relation.fields outputs :=
  fields_ofExpression h ▸ named_renamed outputs

end Relation

end ViewCompiler
