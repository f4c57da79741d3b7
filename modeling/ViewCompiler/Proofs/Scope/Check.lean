import ViewCompiler.Proofs.Field.FieldSet
import ViewCompiler.Proofs.Scope.Order
import ViewCompiler.Scope.Check
import ViewCompiler.View.Codec

/-!
# What a check establishes

* `Node.Passed`: what is true of a node that passes its check, read off function by function.
* `View.checkNodes_ok`: the check of a scope changes a node only at its own turn, so that a node
  which comes after its inputs is checked against their final fields.
* `View.Validated`: **every node of a checked view has passed** in the scope as it is in the end.
* `View.indexed_of_decode`: the fields of a view that is read have the index that a check relies on.
-/

namespace ViewCompiler

namespace Node

variable {settings : QuerySettings} {engine : Engine} {scope scope' : List Node} {node : Node}

theorem require_eq_ok {condition : Bool} {defect : NodeDefect} :
    require condition defect = .ok () ↔ condition = true := by
  cases condition <;> simp [require]

/-! ### The check of one node -/

/-- What the check of a node finds out about the node in a scope. -/
def Passed (scope : List Node) (node : Node) : Prop :=
  match node.config with
  | .view _ _ distinct source =>
    source.isSome = true ∧
      (distinct.enabled = true → ∀ name ∈ distinct.fields, node.outputFields.contains name = true)
  | .join _ keys _ _ =>
    keys ≠ [] ∧ ∀ left right, node.inputs = [left, right] → ∀ key ∈ keys,
      hasField scope left key.left = true ∧ hasField scope right key.right = true
  | .union _ mappings _ =>
    mappings.length = node.inputs.length ∧ ∀ entry ∈ node.inputs.zip mappings,
      entry.2.length = node.outputFields.size ∧
        ∀ column ∈ entry.2, column.isConstant = false → hasField scope entry.1 column.field = true
  | .sql expression =>
    ∃ text, Template.render (fun id => .ok (Sql.quoteIdent id)) expression = .ok text
  | .output => True

/-- The node with the fields that it projects. -/
def withProjected (node : Node) : Option (FieldSet × Bool) → Node
  | none => node
  | some (fields, _) => { node with outputFields := fields }

theorem checkView_eq_ok [Readers] {outputs : FieldSet} {filter : Option Filter}
    {distinct : Distinct} {source : Option View}
    (h : checkView settings engine outputs filter distinct source = .ok ()) :
    source.isSome = true ∧
      (distinct.enabled = true → ∀ name ∈ distinct.fields, outputs.contains name = true) := by
  cases source with
  | none => simp [checkView] at h
  | some source =>
    refine ⟨rfl, fun henabled name hname => ?_⟩
    cases hmissing : distinct.fields.find? fun name => !outputs.contains name with
    | none => simpa using List.find?_eq_none.1 hmissing name hname
    | some other =>
      simp only [checkView, henabled, ↓reduceIte, hmissing] at h
      cases filter with
      | none => simp [Result.bind_unit_eq_ok] at h
      | some filter => simp [Result.bind_unit_eq_ok] at h

theorem checkJoinKeys_eq_ok {left right : String} {seen : List (String × String)}
    {keys : List JoinKey} (h : checkJoinKeys scope left right seen keys = .ok ()) :
    ∀ key ∈ keys, hasField scope left key.left = true ∧ hasField scope right key.right = true := by
  induction keys generalizing seen with
  | nil => simp
  | cons key rest ih =>
    obtain ⟨hkey, hrest⟩ := Result.bind_unit_eq_ok.1 h
    simp only [checkJoinKey, Result.bind_unit_eq_ok, require_eq_ok] at hkey
    exact List.forall_mem_cons.2 ⟨hkey.2.2.2, ih hrest⟩

theorem checkColumns_eq_ok {input : String} {seen : List String} {columns : List UnionColumn}
    (h : checkColumns scope input seen columns = .ok ()) :
    ∀ column ∈ columns, column.isConstant = false → hasField scope input column.field = true := by
  induction columns generalizing seen with
  | nil => simp
  | cons column rest ih =>
    rw [checkColumns] at h
    by_cases hconst : column.isConstant = true
    · rw [if_pos hconst] at h
      exact List.forall_mem_cons.2 ⟨fun hnot => by simp [hconst] at hnot, ih h⟩
    · rw [if_neg hconst] at h
      simp only [Result.bind_unit_eq_ok, require_eq_ok] at h
      exact List.forall_mem_cons.2 ⟨fun _ => h.2.1, ih h.2.2⟩

theorem checkMappings_eq_ok {expected : Nat} {mappings : List (String × List UnionColumn)}
    (h : checkMappings scope expected mappings = .ok ()) :
    ∀ entry ∈ mappings, entry.2.length = expected ∧
      ∀ column ∈ entry.2, column.isConstant = false →
        hasField scope entry.1 column.field = true := by
  induction mappings with
  | nil => simp
  | cons entry rest ih =>
    obtain ⟨input, columns⟩ := entry
    simp only [checkMappings, Result.bind_unit_eq_ok, require_eq_ok, decide_eq_true_eq] at h
    exact List.forall_mem_cons.2 ⟨⟨h.1, checkColumns_eq_ok h.2.1⟩, ih h.2.2⟩

theorem projectedFields_eq_ok [Readers] {declared : FieldSet} {expression : String}
    {projected : FieldSet × Bool} (h : projectedFields engine declared expression = .ok projected) :
    projected.1.Indexed ∧
      ∃ text, Template.render (fun id => .ok (Sql.quoteIdent id)) expression = .ok text := by
  obtain ⟨-, h⟩ := Result.bind_unit_eq_ok.1 h
  obtain ⟨-, h⟩ := Result.bind_unit_eq_ok.1 h
  obtain ⟨projection, hprojection, h⟩ := Result.bind_eq_ok.1 h
  obtain rfl := Except.ok.inj h
  refine ⟨FieldSet.indexed_ofList _, ?_⟩
  rw [Result.mapError_eq_ok, Projection.ofExpression] at hprojection
  cases hrender : Template.render (fun id => .ok (Sql.quoteIdent id)) expression with
  | ok text => exact ⟨text, rfl⟩
  | error cause =>
    rw [hrender] at hprojection
    split at hprojection <;> cases hprojection

/-- **A node that its check accepts has passed**, with the fields that it projects. -/
theorem check_eq_ok [Readers] {projected : Option (FieldSet × Bool)}
    (h : node.check settings .sql scope = .ok projected) :
    (node.withProjected projected).Passed scope ∧
      (node.outputFields.Indexed → (node.withProjected projected).outputFields.Indexed) := by
  obtain ⟨found, hconfig, hfound⟩ := Result.bind_eq_ok.1 h
  obtain rfl : found = projected := by
    split at hfound
    · exact Except.ok.inj hfound
    · cases hfound
  cases node with | mk id inputs config outputs lineage
  cases config with
  | view viewId filter distinct source =>
    obtain ⟨⟨⟩, hview, rfl⟩ := Result.map_eq_ok.1 hconfig
    exact ⟨checkView_eq_ok hview, fun hindexed => hindexed⟩
  | join kind keys filter distinct =>
    obtain ⟨⟨⟩, hjoin, rfl⟩ := Result.map_eq_ok.1 hconfig
    simp only [checkJoin, Result.bind_unit_eq_ok, require_eq_ok] at hjoin
    refine ⟨⟨by simpa using hjoin.1, fun left right hinputs => ?_⟩, fun hindexed => hindexed⟩
    obtain rfl : inputs = [left, right] := hinputs
    exact checkJoinKeys_eq_ok hjoin.2
  | union kind mappings filter =>
    obtain ⟨⟨⟩, hunion, rfl⟩ := Result.map_eq_ok.1 hconfig
    simp only [checkUnion, Engine.isSearch, Bool.false_eq_true, ↓reduceIte,
      Result.bind_unit_eq_ok, require_eq_ok, decide_eq_true_eq] at hunion
    exact ⟨⟨hunion.1, checkMappings_eq_ok hunion.2⟩, fun hindexed => hindexed⟩
  | sql expression =>
    obtain ⟨projected, hsql, rfl⟩ := Result.map_eq_ok.1 hconfig
    obtain ⟨hindexed, htext⟩ := projectedFields_eq_ok hsql
    exact ⟨htext, fun _ => hindexed⟩
  | output =>
    obtain ⟨⟨⟩, -, rfl⟩ := Result.map_eq_ok.1 hconfig
    exact ⟨trivial, fun hindexed => hindexed⟩

theorem hasField_congr {id field : String} (h : fieldsOf? scope id = fieldsOf? scope' id) :
    hasField scope id field = hasField scope' id field := by
  rw [hasField, hasField, h]

/-- Of its scope a node has seen only the fields of its inputs. -/
theorem Passed.congr (h : node.Passed scope)
    (hinputs : ∀ input ∈ node.inputs, fieldsOf? scope input = fieldsOf? scope' input) :
    node.Passed scope' := by
  cases node with | mk id inputs config outputs lineage
  cases config with
  | view => exact h
  | join kind keys filter distinct =>
    refine ⟨h.1, fun left right heq key hkey => ?_⟩
    obtain rfl : inputs = [left, right] := heq
    rw [← hasField_congr (hinputs left (by simp)), ← hasField_congr (hinputs right (by simp))]
    exact h.2 left right rfl key hkey
  | union kind mappings filter =>
    refine ⟨h.1, fun entry hentry => ⟨(h.2 entry hentry).1, fun column hcolumn hconst => ?_⟩⟩
    rw [← hasField_congr (hinputs entry.1 (List.of_mem_zip hentry).1)]
    exact (h.2 entry hentry).2 column hcolumn hconst
  | sql => exact h
  | output => trivial

/-- What a check leaves of a node as it is. -/
def fixedPart (node : Node) : String × List String × NodeConfig :=
  (node.id, node.inputs, node.config)

theorem fixedPart_withProjected (node : Node) (projected : Option (FieldSet × Bool)) :
    (node.withProjected projected).fixedPart = node.fixedPart := by
  cases projected <;> rfl

end Node

/-! ### The scope before and after -/

namespace Scope

variable {scope scope' : List Node}

theorem fieldsOf?_id (hids : (scope.map Node.id).Nodup) {i : Nat} {node : Node}
    (h : scope[i]? = some node) : Node.fieldsOf? scope node.id = some node.outputFields := by
  obtain ⟨hi, hid, hbefore⟩ := List.findIdx?_eq_some_iff_getElem.1 (position?_id hids h)
  have hfind : scope.find? (fun other => other.id = node.id) = some node :=
    List.find?_eq_some_iff_getElem.2
      ⟨by simp, i, hi, (List.getElem?_eq_some_iff.1 h).2, by simpa using hbefore⟩
  rw [Node.fieldsOf?, hfind, Option.map_some]

theorem ids_eq_of_fixedPart (h : scope'.map Node.fixedPart = scope.map Node.fixedPart) :
    scope'.map Node.id = scope.map Node.id := by
  have hids := congrArg (List.map Prod.fst) h
  rwa [List.map_map, List.map_map] at hids

theorem exists_fixedPart (h : scope'.map Node.fixedPart = scope.map Node.fixedPart) {node : Node}
    (hnode : node ∈ scope') :
    ∃ other ∈ scope, other.id = node.id ∧ other.inputs = node.inputs ∧
      other.config = node.config := by
  have hmem : node.fixedPart ∈ scope.map Node.fixedPart := h ▸ List.mem_map_of_mem hnode
  obtain ⟨other, hother, heq⟩ := List.mem_map.1 hmem
  exact ⟨other, hother, by simpa [Node.fixedPart] using heq⟩

theorem outputCount_eq_of_fixedPart
    (h : scope'.map Node.fixedPart = scope.map Node.fixedPart) :
    outputCount scope' = outputCount scope := by
  have hcount := congrArg (List.countP fun part => decide (part.2.2.kind = .output)) h
  rwa [List.countP_map, List.countP_map] at hcount

theorem WellFormed.of_fixedPart (hwell : WellFormed scope)
    (h : scope'.map Node.fixedPart = scope.map Node.fixedPart) : WellFormed scope' where
  named node hnode := by
    obtain ⟨other, hother, hid, -, -⟩ := exists_fixedPart h hnode
    exact hid ▸ hwell.named other hother
  ids := ids_eq_of_fixedPart h ▸ hwell.ids
  output := (outputCount_eq_of_fixedPart h).trans hwell.output
  counts node hnode := by
    obtain ⟨other, hother, -, hinputs, hconfig⟩ := exists_fixedPart h hnode
    have hcount := hwell.counts other hother
    rwa [hinputs, Node.kind, hconfig] at hcount
  distinct node hnode := by
    obtain ⟨other, hother, -, hinputs, -⟩ := exists_fixedPart h hnode
    exact hinputs ▸ hwell.distinct other hother
  known node hnode := by
    obtain ⟨other, hother, -, hinputs, -⟩ := exists_fixedPart h hnode
    rw [ids_eq_of_fixedPart h]
    exact hinputs ▸ hwell.known other hother

end Scope

/-! ### The nodes one after another -/

namespace View

variable {settings : QuerySettings} {engine : Engine} {view after valid : View}

theorem scope_withProjected (view : View) (i : Nat) (projected : Option (FieldSet × Bool)) :
    (view.withProjected i projected).scope =
      view.scope.modify i fun node => node.withProjected projected := by
  cases projected with
  | none => exact (List.modify_id i view.scope).symm
  | some => rfl

theorem kind_withProjected (view : View) (i : Nat) (projected : Option (FieldSet × Bool)) :
    (view.withProjected i projected).kind = view.kind := by
  cases projected <;> rfl

theorem fixedPart_scope_withProjected (view : View) (i : Nat)
    (projected : Option (FieldSet × Bool)) :
    (view.withProjected i projected).scope.map Node.fixedPart =
      view.scope.map Node.fixedPart := by
  refine List.ext_getElem? fun k => ?_
  simp only [scope_withProjected, List.getElem?_map, List.getElem?_modify]
  cases view.scope[k]? with
  | none => rfl
  | some node =>
    by_cases hk : i = k
    · simp [hk, Node.fixedPart_withProjected]
    · simp [hk]

/-- **A check changes a node only at its own turn.**  Every node is checked in a scope that agrees
with the final one except for this node and the nodes after it. -/
theorem checkNodes_ok [Readers] {positions : List Nat}
    (h : checkNodes settings engine positions view = (.ok (), after)) (hnodup : positions.Nodup) :
    after.kind = view.kind ∧ after.scope.map Node.fixedPart = view.scope.map Node.fixedPart ∧
      (∀ k, k ∉ positions → after.scope[k]? = view.scope[k]?) ∧
      ∀ pre i post, positions = pre ++ i :: post → ∀ node, view.scope[i]? = some node →
        ∃ scope projected, node.check settings engine scope = .ok projected ∧
          after.scope[i]? = some (node.withProjected projected) ∧
          scope.map Node.fixedPart = view.scope.map Node.fixedPart ∧
          ∀ k, k ∉ i :: post → after.scope[k]? = scope[k]? := by
  induction positions generalizing view with
  | nil =>
    obtain ⟨-, rfl⟩ := Prod.mk.inj h
    exact ⟨rfl, rfl, fun _ _ => rfl, by simp⟩
  | cons position rest ih =>
    obtain ⟨hnotMem, hnodup⟩ := List.nodup_cons.1 hnodup
    rw [checkNodes] at h
    cases hposition : view.scope[position]? with
    | none =>
      rw [hposition] at h
      obtain ⟨hkind, hfixed, hframe, hturns⟩ := ih h hnodup
      refine ⟨hkind, hfixed, fun k hk => hframe k fun hrest => hk (List.mem_cons_of_mem _ hrest),
        fun pre i post heq node hnode => ?_⟩
      rcases pre with - | ⟨first, pre⟩
      · obtain ⟨rfl, rfl⟩ := List.cons_eq_cons.1 heq
        simp [hposition] at hnode
      · obtain ⟨rfl, rfl⟩ := List.cons_eq_cons.1 heq
        exact hturns pre i post rfl node hnode
    | some first =>
      rw [hposition] at h
      cases hcheck : first.check settings engine view.scope with
      | error defect => simp [hcheck] at h
      | ok projected =>
        simp only [hcheck] at h
        obtain ⟨hkind, hfixed, hframe, hturns⟩ := ih h hnodup
        rw [kind_withProjected] at hkind
        rw [fixedPart_scope_withProjected] at hfixed hturns
        have hother : ∀ k, k ≠ position →
            (view.withProjected position projected).scope[k]? = view.scope[k]? := fun k hk => by
          simp [scope_withProjected, hk.symm]
        refine ⟨hkind, hfixed, fun k hk => ?_, fun pre i post heq node hnode => ?_⟩
        · obtain ⟨hne, hrest⟩ := not_or.1 (mt List.mem_cons.2 hk)
          rw [hframe k hrest, hother k hne]
        rcases pre with - | ⟨head, pre⟩
        · -- the turn of the first node: what comes after it leaves it as it is
          obtain ⟨rfl, rfl⟩ := List.cons_eq_cons.1 heq
          obtain rfl : first = node := Option.some.inj (hposition.symm.trans hnode)
          refine ⟨view.scope, projected, hcheck, ?_, rfl, fun k hk => ?_⟩
          · rw [hframe position hnotMem, scope_withProjected, List.getElem?_modify_eq, hposition]
            rfl
          · obtain ⟨hne, hrest⟩ := not_or.1 (mt List.mem_cons.2 hk)
            rw [hframe k hrest, hother k hne]
        · obtain ⟨rfl, rfl⟩ := List.cons_eq_cons.1 heq
          have hne : i ≠ position := fun heq => hnotMem (heq ▸ by simp)
          exact hturns pre i post rfl node (by rw [hother i hne, hnode])

theorem foldlM_sharedEngine {scope : List Node} {shared result : Option Engine}
    (h : scope.foldlM sharedEngine shared = .ok result)
    (hsources : ∀ node ∈ scope, ∀ source, node.source? = some source → source.engine = engine)
    (hshared : ∀ found, shared = some found → found = engine) :
    ∀ found, result = some found → found = engine := by
  induction scope generalizing shared with
  | nil =>
    obtain rfl : shared = result := Except.ok.inj h
    exact hshared
  | cons node rest ih =>
    rw [List.forall_mem_cons] at hsources
    obtain ⟨between, hfirst, hrest⟩ := Result.bind_eq_ok.1 h
    refine ih hrest hsources.2 fun found hfound => ?_
    rw [sharedEngine] at hfirst
    split at hfirst
    · cases hfirst
    · next viewId filter distinct source hconfig =>
      have hsource := hsources.1 source (by rw [Node.source?, hconfig])
      split at hfirst
      · cases hfirst
      split at hfirst
      · -- the first source decides the engine
        obtain rfl := Except.ok.inj hfirst
        exact (Option.some.inj hfound).symm.trans hsource
      · next others =>
        split at hfirst
        · obtain rfl := Except.ok.inj hfirst
          exact hshared found hfound
        · cases hfirst
    · obtain rfl := Except.ok.inj hfirst
      exact hshared found hfound

/-- What a check of a view of SQL sources establishes about its scope. -/
structure Validated (view : View) : Prop where
  custom : view.isAtomic = false
  wellFormed : Scope.WellFormed view.scope
  /-- There is no cycle. -/
  ranked : ∃ rank : String → Nat, ∀ node ∈ view.scope, ∀ input ∈ node.inputs,
    rank input < rank node.id
  passed : ∀ node ∈ view.scope, node.Passed view.scope
  indexed : ∀ node ∈ view.scope, node.outputFields.Indexed

/-- The check of a scope comes to the checks of its nodes in the order of the scope. -/
theorem checkScope_eq_ok [Readers] (h : view.checkScope settings = (.ok (), after)) :
    ∃ positions engine, Scope.order view.scope = .ok positions ∧
      sourceEngine view.scope = .ok engine ∧
      checkNodes settings engine positions
        { view with engine, isSingleSource := inOnePlace view.scope } = (.ok (), after) := by
  rw [checkScope] at h
  cases hplan : plan settings view.scope with
  | error defect => simp [hplan] at h
  | ok found =>
    obtain ⟨positions, engine⟩ := found
    rw [hplan] at h
    obtain ⟨-, hplan⟩ := Result.bind_unit_eq_ok.1 hplan
    obtain ⟨-, hplan⟩ := Result.bind_unit_eq_ok.1 hplan
    obtain ⟨order, horder, hplan⟩ := Result.bind_eq_ok.1 hplan
    obtain ⟨shared, hshared, heq⟩ := Result.bind_eq_ok.1 hplan
    obtain ⟨rfl, rfl⟩ := Prod.mk.inj (Except.ok.inj heq)
    exact ⟨order, shared, horder, hshared, h⟩

theorem fields_checkNodes [Readers] (settings : QuerySettings) (engine : Engine)
    (positions : List Nat) (view : View) :
    (checkNodes settings engine positions view).2.fields = view.fields := by
  induction positions generalizing view with
  | nil => rfl
  | cons position rest ih =>
    rw [checkNodes]
    split
    · exact ih view
    · split
      · rfl
      · next projected _ =>
        rw [ih]
        cases projected <;> rfl

theorem completed_of_checked [Readers] (h : view.checked settings = .ok valid)
    (hcustom : view.isAtomic = false) :
    ∃ after, view.checkScope settings = (.ok (), after) ∧ after.fields = view.fields ∧
      valid = after.completed := by
  rw [checked, check, hcustom] at h
  simp only [Bool.false_eq_true, ↓reduceIte] at h
  cases hscope : view.checkScope settings with
  | mk result after =>
    rw [hscope] at h
    rcases result with defect | ⟨⟨⟩⟩
    · cases h
    refine ⟨after, rfl, ?_, ?_⟩
    · obtain ⟨positions, engine, -, -, hnodes⟩ := checkScope_eq_ok hscope
      have hfields := fields_checkNodes settings engine positions
        { view with engine, isSingleSource := inOnePlace view.scope }
      rwa [hnodes] at hfields
    · simp only at h
      split at h
      · next heq => exact (Except.ok.inj h).symm.trans (Prod.mk.inj heq).2.symm
      · cases h

theorem checkScope_of_checked [Readers] (h : view.checked settings = .ok valid)
    (hcustom : view.isAtomic = false) :
    ∃ after, view.checkScope settings = (.ok (), after) ∧ valid.kind = after.kind ∧
      valid.scope = after.scope := by
  obtain ⟨after, hafter, -, rfl⟩ := completed_of_checked h hcustom
  exact ⟨after, hafter, rfl, rfl⟩

theorem checked_eq_ok [Readers] (h : view.checked settings = .ok valid)
    (hcustom : view.isAtomic = false) :
    ∃ positions engine after, Scope.order view.scope = .ok positions ∧
      sourceEngine view.scope = .ok engine ∧
      checkNodes settings engine positions
        { view with engine, isSingleSource := inOnePlace view.scope } = (.ok (), after) ∧
      valid.kind = after.kind ∧ valid.scope = after.scope := by
  obtain ⟨after, hchecked, hkind, hscope⟩ := checkScope_of_checked h hcustom
  obtain ⟨positions, engine, horder, hengine, hnodes⟩ := checkScope_eq_ok hchecked
  exact ⟨positions, engine, after, horder, hengine, hnodes, hkind, hscope⟩

theorem wellFormed_of_checked [Readers] (h : view.checked settings = .ok valid)
    (hcustom : view.isAtomic = false) :
    valid.isAtomic = false ∧ Scope.WellFormed valid.scope := by
  obtain ⟨positions, engine, after, horder, -, hnodes, hkind, hscope⟩ := checked_eq_ok h hcustom
  obtain ⟨hwell, hperm, -⟩ := Scope.order_eq_ok horder
  obtain ⟨hkept, hfixed, -⟩ := checkNodes_ok hnodes (hperm.nodup_iff.2 List.nodup_range)
  exact ⟨by rwa [isAtomic, hkind, hkept], hscope ▸ hwell.of_fixedPart hfixed⟩

theorem engine_of_sourceEngine {found : Engine} (h : sourceEngine view.scope = .ok found)
    (hsources : ∀ node ∈ view.scope, ∀ source, node.source? = some source →
      source.engine = engine) : found = engine := by
  obtain ⟨shared, hfold, hshared⟩ := Result.bind_eq_ok.1 h
  cases shared with
  | none => cases hshared
  | some other =>
    obtain rfl : other = found := Except.ok.inj hshared
    exact foldlM_sharedEngine hfold hsources (by simp) other rfl

/-- The checks of all nodes, each after its inputs: every node passes in the scope that they
leave. -/
theorem passed_of_checkNodes [Readers] {positions : List Nat}
    (hnodes : checkNodes settings .sql positions view = (.ok (), after))
    (hwell : Scope.WellFormed view.scope)
    (hperm : positions.Perm (List.range view.scope.length))
    (hplaced : ∀ pre i post, positions = pre ++ i :: post →
      ∀ j ∈ Scope.inputsOf view.scope i, j ∈ pre)
    (hindexed : ∀ node ∈ view.scope, node.outputFields.Indexed) {node : Node}
    (hnode : node ∈ after.scope) : node.Passed after.scope ∧ node.outputFields.Indexed := by
  have hnodup : positions.Nodup := hperm.nodup_iff.2 List.nodup_range
  obtain ⟨-, hfixed, -, hturns⟩ := checkNodes_ok hnodes hnodup
  have hids : (after.scope.map Node.id).Nodup := Scope.ids_eq_of_fixedPart hfixed ▸ hwell.ids
  obtain ⟨i, hi⟩ := List.mem_iff_getElem?.1 hnode
  obtain ⟨before, hbefore⟩ : ∃ before, view.scope[i]? = some before := by
    have hlength : after.scope.length = view.scope.length := by
      simpa using congrArg List.length hfixed
    have hlt := (List.getElem?_eq_some_iff.1 hi).1
    exact ⟨_, List.getElem?_eq_getElem (hlength ▸ hlt)⟩
  have hin : i ∈ positions :=
    hperm.mem_iff.2 (List.mem_range.2 (List.getElem?_eq_some_iff.1 hbefore).1)
  obtain ⟨pre, post, heq⟩ := List.append_of_mem hin
  obtain ⟨scope, projected, hcheck, hfinal, hscopeFixed, hagree⟩ :=
    hturns pre i post heq before hbefore
  obtain rfl : node = before.withProjected projected := Option.some.inj (hi.symm.trans hfinal)
  obtain ⟨hpassed, hfields⟩ := Node.check_eq_ok hcheck
  refine ⟨hpassed.congr fun input hinput => ?_,
    hfields (hindexed before (List.mem_of_getElem? hbefore))⟩
  have hinputs : (before.withProjected projected).inputs = before.inputs := by
    cases projected <;> rfl
  rw [hinputs] at hinput
  -- an input has had its turn, so that its fields are those it has in the end
  obtain ⟨j, source, hj, rfl, hplace⟩ := hwell.exists_input hbefore hinput
  have hpre : j ∈ pre := hplaced pre i post heq j hplace
  have hnotPost : j ∉ i :: post := fun hpost =>
    (List.nodup_append.1 (heq ▸ hnodup)).2.2 j hpre j hpost rfl
  have hpart : after.scope[j]?.map Node.fixedPart = some source.fixedPart := by
    rw [← List.getElem?_map, hfixed, List.getElem?_map, hj, Option.map_some]
  obtain ⟨final, hfinal, hid⟩ := Option.map_eq_some_iff.1 hpart
  obtain hid : final.id = source.id := congrArg Prod.fst hid
  have hscopeIds : (scope.map Node.id).Nodup :=
    Scope.ids_eq_of_fixedPart hscopeFixed ▸ hwell.ids
  rw [← hid, Scope.fieldsOf?_id hids hfinal,
    Scope.fieldsOf?_id hscopeIds ((hagree j hnotPost).symm.trans hfinal)]

/-- **Every node of a checked view has passed** in the scope as the check leaves it. -/
theorem validated_of_checked [Readers] (h : view.checked settings = .ok valid)
    (hcustom : view.isAtomic = false)
    (hsources : ∀ node ∈ view.scope, ∀ source, node.source? = some source → source.engine = .sql)
    (hindexed : ∀ node ∈ view.scope, node.outputFields.Indexed) : Validated valid := by
  obtain ⟨positions, engine, after, horder, hengine, hnodes, -, hscope⟩ := checked_eq_ok h hcustom
  obtain ⟨hwell, hperm, hplaced⟩ := Scope.order_eq_ok horder
  obtain ⟨rank, hrank⟩ := Scope.exists_rank horder
  obtain rfl : engine = .sql := engine_of_sourceEngine hengine hsources
  obtain ⟨-, hfixed, -⟩ := checkNodes_ok hnodes (hperm.nodup_iff.2 List.nodup_range)
  have hpassed {node : Node} (hnode : node ∈ after.scope) :=
    passed_of_checkNodes hnodes hwell hperm hplaced hindexed hnode
  rw [← hscope] at hfixed hpassed
  obtain ⟨hvalid, hwell⟩ := wellFormed_of_checked h hcustom
  refine ⟨hvalid, hwell, ⟨rank, fun node hmem input hinput => ?_⟩,
    fun node hmem => (hpassed hmem).1, fun node hmem => (hpassed hmem).2⟩
  obtain ⟨other, hother, hid, hinputs, -⟩ := Scope.exists_fixedPart hfixed hmem
  exact hid ▸ hrank other hother input (hinputs ▸ hinput)

end View

/-! ### Views that are read -/

theorem Node.indexed_of_decodeWithin {depth : Nat} {value : Json} {node : Node}
    (h : decodeWithin depth value = some node) : node.outputFields.Indexed := by
  cases depth with
  | zero => simp [decodeWithin] at h
  | succ depth =>
    rw [decodeWithin] at h
    simp only [↓Result.bind_eq_some] at h
    obtain ⟨members, -, kind, -, id, -, inputs, -, config, -, outputs, houtputs, hnode⟩ := h
    obtain rfl := Option.some.inj hnode
    rw [Json.orElse?] at houtputs
    split at houtputs
    · obtain rfl := Option.some.inj houtputs
      exact FieldSet.indexed_empty
    · exact FieldSet.indexed_of_decode houtputs

/-- The nodes of a view that is read have fields with an index. -/
theorem View.indexed_of_decode {value : Json} {view : View} (h : decode value = some view) :
    ∀ node ∈ view.scope, node.outputFields.Indexed := by
  intro node hnode
  rw [decode, decodeWithin] at h
  simp only [↓Result.bind_eq_some] at h
  obtain ⟨members, -, id, -, name, -, technical, -, table, -, stored, -, source, -, kind, -, engine,
    -, fields, -, scope, hscope, fieldScope, -, hview⟩ := h
  obtain rfl := Option.some.inj hview
  rw [Json.orElse?] at hscope
  split at hscope
  · obtain rfl := Option.some.inj hscope
    exact absurd hnode List.not_mem_nil
  · obtain ⟨items, -, hitems⟩ := Option.bind_eq_some_iff.1 hscope
    obtain ⟨item, -, hitem⟩ := Result.exists_of_mem_mapM hitems hnode
    exact Node.indexed_of_decodeWithin hitem

end ViewCompiler
