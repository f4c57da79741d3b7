import ViewCompiler.Proofs.Scope.Check
import ViewCompiler.Readers.Standard

/-!
# The columns of a checked scope

The nodes of a checked scope should have distinct output fields. A check asks this of the declared
fields, and a node with an SQL expression trades them for the fields that its expression projects.

* `Node.names_withProjected`: the names that a node has after its check.
* `Projection.Repeats`: an expression projects two columns under one name.
* `View.names_nodup_iff`: **the nodes of a checked scope have distinct output fields exactly if no
  SQL expression projects two columns under one name.** The fields of all other nodes are distinct.
-/

namespace ViewCompiler

/-- Does the expression project two columns under one name? -/
def Projection.Repeats [Readers] (expression : String) : Prop :=
  ∃ projection, ofExpression expression = .ok projection ∧
    ¬(projection.columns.map ProjectedColumn.output).Nodup

namespace Node

variable {settings : QuerySettings} {engine : Engine} {scope : List Node} {node : Node}

theorem name_projectedField {declared : FieldSet} (hindexed : declared.Indexed)
    (column : ProjectedColumn) : (projectedField declared column).name = column.output := by
  rw [projectedField]
  cases hfield : declared.get? column.output with
  | none => rfl
  | some field =>
    have hname : field.name = column.output := hindexed.name_of_get? hfield
    exact hname

theorem names_projectedFields [Readers] {declared : FieldSet} {expression : String}
    {projected : FieldSet × Bool} (hindexed : declared.Indexed)
    (h : projectedFields engine declared expression = .ok projected) :
    ∃ projection, Projection.ofExpression expression = .ok projection ∧
      projected.1.names = projection.columns.map ProjectedColumn.output := by
  obtain ⟨-, h⟩ := Result.bind_unit_eq_ok.1 h
  obtain ⟨-, h⟩ := Result.bind_unit_eq_ok.1 h
  obtain ⟨projection, hprojection, h⟩ := Result.bind_eq_ok.1 h
  obtain rfl := Except.ok.inj h
  refine ⟨projection, Result.mapError_eq_ok.1 hprojection, ?_⟩
  have hnames : ∀ column ∈ projection.columns,
      (Field.name ∘ projectedField declared) column = column.output := by
    intro column _
    exact name_projectedField hindexed column
  rw [FieldSet.names, FieldSet.ofList, List.map_map]
  exact List.map_congr_left hnames

theorem checkConfig_eq_ok [Readers] {projected : Option (FieldSet × Bool)}
    (h : node.checkConfig settings engine scope = .ok projected) :
    (projected = none ∧ ∀ expression, node.config ≠ .sql expression) ∨
      ∃ expression fields, node.config = .sql expression ∧ projected = some fields ∧
        projectedFields engine node.outputFields expression = .ok fields := by
  rw [checkConfig] at h
  cases hconfig : node.config with
  | sql expression =>
    rw [hconfig] at h
    obtain ⟨fields, hfields, rfl⟩ := Result.map_eq_ok.1 h
    exact .inr ⟨expression, fields, rfl, rfl, hfields⟩
  | _ =>
    rw [hconfig] at h
    obtain ⟨-, -, rfl⟩ := Result.map_eq_ok.1 h
    exact .inl ⟨rfl, by simp⟩

/-- The names that a node has after its check: those that its SQL expression projects, or else the
declared ones, which are distinct. -/
theorem names_withProjected [Readers] {projected : Option (FieldSet × Bool)}
    (hindexed : node.outputFields.Indexed)
    (h : node.check settings engine scope = .ok projected) :
    (∃ expression projection, node.config = .sql expression ∧
        Projection.ofExpression expression = .ok projection ∧
        (node.withProjected projected).outputFields.names =
          projection.columns.map ProjectedColumn.output) ∨
      (∀ expression, node.config ≠ .sql expression) ∧
        (node.withProjected projected).outputFields.names.Nodup := by
  obtain ⟨found, hconfig, hfound⟩ := Result.bind_eq_ok.1 h
  split at hfound
  · next hdistinct =>
    obtain rfl : found = projected := Except.ok.inj hfound
    obtain ⟨rfl, hnot⟩ | ⟨expression, fields, hsql, rfl, hfields⟩ := checkConfig_eq_ok hconfig
    · exact .inr ⟨hnot, FieldSet.duplicateNames_eq_nil_iff.1 hdistinct⟩
    · -- the distinct declared fields are given up for the projected ones
      obtain ⟨projection, hprojection, hnames⟩ := names_projectedFields hindexed hfields
      exact .inl ⟨expression, projection, hsql, hprojection, hnames⟩
  · cases hfound

end Node

namespace View

variable {settings : QuerySettings} {view valid : View}

theorem exists_check_of_checkScope [Readers] (h : view.checkScope settings = (.ok (), valid))
    (i : Nat) :
    valid.scope[i]? = none ∧ view.scope[i]? = none ∨
      ∃ engine scope node projected, view.scope[i]? = some node ∧
        node.check settings engine scope = .ok projected ∧
        valid.scope[i]? = some (node.withProjected projected) := by
  obtain ⟨positions, engine, horder, -, hnodes⟩ := checkScope_eq_ok h
  obtain ⟨-, hperm, -⟩ := Scope.order_eq_ok horder
  obtain ⟨-, hfixed, -, hturns⟩ := checkNodes_ok hnodes (hperm.nodup_iff.2 List.nodup_range)
  have hlength : valid.scope.length = view.scope.length := by
    simpa using congrArg List.length hfixed
  cases hnode : view.scope[i]? with
  | none =>
    have hout : view.scope.length ≤ i := List.getElem?_eq_none_iff.1 hnode
    exact .inl ⟨List.getElem?_eq_none_iff.2 (hlength ▸ hout), rfl⟩
  | some node =>
    have hlt : i < view.scope.length := (List.getElem?_eq_some_iff.1 hnode).1
    have hin : i ∈ positions := hperm.mem_iff.2 (List.mem_range.2 hlt)
    obtain ⟨pre, post, hplace⟩ := List.append_of_mem hin
    obtain ⟨scope, projected, hcheck, hfinal, -⟩ := hturns pre i post hplace node hnode
    exact .inr ⟨engine, scope, node, projected, rfl, hcheck, hfinal⟩

/-- Every node of a checked scope is a node that its check accepts, with what this projects. -/
theorem exists_check_of_mem [Readers] (h : view.checkScope settings = (.ok (), valid)) {node : Node}
    (hnode : node ∈ valid.scope) :
    ∃ engine scope, ∃ before ∈ view.scope, ∃ projected,
      before.check settings engine scope = .ok projected ∧
        node = before.withProjected projected := by
  obtain ⟨i, hi⟩ := List.mem_iff_getElem?.1 hnode
  obtain ⟨hnone, -⟩ | ⟨engine, scope, before, projected, hbefore, hcheck, hfinal⟩ :=
    exists_check_of_checkScope h i
  · exact absurd (hi.symm.trans hnone) (Option.some_ne_none node)
  · exact ⟨engine, scope, before, List.mem_of_getElem? hbefore, projected, hcheck,
      Option.some.inj (hi.symm.trans hfinal)⟩

/-- **The nodes of a checked scope have distinct output fields exactly if no SQL expression
projects two columns under one name.** -/
theorem names_nodup_iff [Readers] (hchecked : view.checkScope settings = (.ok (), valid))
    (hindexed : ∀ node ∈ view.scope, node.outputFields.Indexed) :
    (∀ node ∈ valid.scope, node.outputFields.names.Nodup) ↔
      ∀ node ∈ view.scope, ∀ expression, node.config = .sql expression →
        ¬Projection.Repeats expression := by
  constructor
  · rintro hdistinct node hnode expression hconfig ⟨projection, hprojection, hrepeats⟩
    obtain ⟨i, hi⟩ := List.mem_iff_getElem?.1 hnode
    obtain ⟨-, hnone⟩ | ⟨engine, scope, before, projected, hbefore, hcheck, hfinal⟩ :=
      exists_check_of_checkScope hchecked i
    · simp [hnone] at hi
    obtain rfl : before = node := Option.some.inj (hbefore.symm.trans hi)
    have hnodup := hdistinct _ (List.mem_of_getElem? hfinal)
    obtain ⟨found, other, hsql, hother, hnames⟩ | ⟨hnot, -⟩ :=
      Node.names_withProjected (hindexed before hnode) hcheck
    · obtain rfl : found = expression := by simpa [hconfig] using hsql.symm
      obtain rfl : other = projection := Except.ok.inj (hother.symm.trans hprojection)
      exact hrepeats (hnames ▸ hnodup)
    · exact hnot expression hconfig
  · intro hprojections node hnode
    obtain ⟨engine, scope, before, hmem, projected, hcheck, rfl⟩ :=
      exists_check_of_mem hchecked hnode
    obtain ⟨expression, projection, hsql, hprojection, hnames⟩ | ⟨-, hnodup⟩ :=
      Node.names_withProjected (hindexed before hmem) hcheck
    · rw [hnames]
      by_contra hrepeats
      exact hprojections before hmem expression hsql ⟨projection, hprojection, hrepeats⟩
    · exact hnodup

theorem exists_of_toBool [Readers] (h : (view.checkScope settings).1.toBool = true) :
    ∃ valid, view.checkScope settings = (.ok (), valid) := by
  rcases hresult : view.checkScope settings with ⟨defect | ⟨⟨⟩⟩, valid⟩
  · simp [hresult, Except.toBool] at h
  · exact ⟨valid, rfl⟩

/-- A view of what an expression selects twice over. -/
def ofPairs : View where
  id := "pairs"
  kind := .custom
  engine := .sql
  scope :=
    [{ id := "rows", config := .view "t" none {} (some (.atomic "t" "orders" .sql)) },
      { id := "pairs", config := .sql "SELECT id, id FROM rows", inputs := ["rows"] },
      { id := "out", config := .output, inputs := ["pairs"] }]

theorem names_nodup_iff_ofPairs :
    ∃ valid, ofPairs.checkScope {} = (.ok (), valid) ∧
      ¬∀ node ∈ valid.scope, node.outputFields.names.Nodup := by
  have hok : (ofPairs.checkScope {}).1.toBool = true := by decide +kernel
  have hindexed : ∀ node ∈ ofPairs.scope, node.outputFields.Indexed := by
    simp [ofPairs, FieldSet.indexed_empty]
  have hread : (Projection.ofExpression "SELECT id, id FROM rows").toOption =
      some { columns := [{ name := "id" }, { name := "id" }] } := by decide +kernel
  have hrepeats : Projection.Repeats "SELECT id, id FROM rows" :=
    ⟨_, Result.toOption_eq_some.1 hread, by decide⟩
  obtain ⟨valid, hchecked⟩ := exists_of_toBool hok
  refine ⟨valid, hchecked, fun hdistinct => ?_⟩
  have hprojections := (names_nodup_iff hchecked hindexed).1 hdistinct
  exact hprojections _ (.tail _ (.head _)) _ rfl hrepeats

end View

end ViewCompiler
