import ViewCompiler.Proofs.Relation.Memo
import ViewCompiler.Proofs.Relation.Parts
import ViewCompiler.Proofs.Scope.Check
import ViewCompiler.Readers.Standard

/-!
# Checked views compile

A checked view of SQL sources compiles unless one of the nodes behind its output fails a condition
that the check leaves open.

* `Node.Renders`: the conditions that a check leaves open, node by node.
* `Recipe.Settles`: a recipe asks for some inputs and otherwise depends on a condition only;
  `Node.settles_recipe` says so of the recipe of every node that has passed its check.
* `View.Outcome`: what the compilation of a node comes to; `View.outcome_relationFrom` derives it
  for all nodes behind the output, from the inputs to the output.
* `View.toSql_agrees`: **a checked view compiles exactly if all nodes behind its output render**.
-/

namespace ViewCompiler

namespace Node

/-- The node with an id has fields. -/
def HasFields (scope : List Node) (id : String) : Prop :=
  ∃ fields, fieldsOf? scope id = some fields ∧ fields.isEmpty = false

/-- The conditions on a node that a check leaves to the compilation. -/
def Renders (scope : List Node) (node : Node) : Prop :=
  match node.config with
  | .view _ filter _ source => ∃ view, source = some view ∧
      (view.metaTableName ≠ "" ∨ view.technicalName ≠ "") ∧
      Filter.Renders view.addressing view.fields filter
  | .join _ _ filter distinct =>
      (∀ input ∈ node.inputs, HasFields scope input) ∧
      (distinct.enabled = true → ∀ name ∈ distinct.fields, name ∈ node.outputFields.names) ∧
      Filter.Renders .bySource node.outputFields filter
  | .union _ mappings filter =>
      (∀ entry ∈ node.inputs.zip mappings,
        (∃ column ∈ entry.2, column.isConstant = false) → HasFields scope entry.1) ∧
      Filter.Renders .bySource (Relation.renamed node.outputFields) filter
  | .sql expression =>
      ∀ id ∈ Template.asked (fun id => .ok (Sql.quoteIdent id)) expression, id ∈ node.inputs
  | .output => True

end Node

/-! ### Recipes -/

namespace Recipe

variable {f : String → Except CompileError Relation} {id : String} {condition condition' : Prop}
  {good : Relation → Prop}

/-- The recipe of a node succeeds with a good relation if the inputs that it asks for and its
condition allow it; else an input is to blame or, if the condition fails, the node itself. -/
def Settles (f : String → Except CompileError Relation) (id : String) (recipe : Recipe)
    (inputs : List String) (condition : Prop) (good : Relation → Prop) : Prop :=
  match recipe.eval f with
  | .ok relation =>
    (∀ input ∈ inputs, ∃ answer, f input = .ok answer) ∧ condition ∧ good relation
  | .error error =>
    (∃ input ∈ inputs, f input = .error error) ∨
      ¬condition ∧ ∃ fault : NodeFault, fault.Deferred ∧ error = .node id fault

theorem Settles.congr {recipe : Recipe} {inputs : List String}
    (h : Settles f id recipe inputs condition good) (hiff : condition ↔ condition') :
    Settles f id recipe inputs condition' good := by
  rwa [← propext hiff]

theorem settles_fail {fault : NodeFault} {inputs : List String} (hcondition : ¬condition)
    (hfault : fault.Deferred) : Settles f id (fail id fault) inputs condition good :=
  .inr ⟨hcondition, fault, hfault, rfl⟩

theorem settles_finish {node : Node} {result : Except NodeFault Relation}
    (hresult : Decides result condition)
    (hgood : ∀ relation, result = .ok relation → good relation) :
    Settles f node.id (node.finish result) [] condition good := by
  cases result with
  | ok relation => exact ⟨by simp, hresult, hgood relation rfl⟩
  | error fault => exact .inr ⟨hresult.1, fault, hresult.2, rfl⟩

theorem settles_ask {input : String} {next : Relation → Recipe} {inputs : List String}
    (hnext : ∀ relation, f input = .ok relation →
      Settles f id (next relation) inputs condition good) :
    Settles f id (.ask input next) (input :: inputs) condition good := by
  rw [Settles, eval]
  cases hinput : f input with
  | error error => exact .inl ⟨input, List.mem_cons_self, hinput⟩
  | ok relation =>
    have hsettles := hnext relation hinput
    rw [Settles] at hsettles
    simp only
    cases heval : (next relation).eval f with
    | ok result =>
      rw [heval] at hsettles
      exact ⟨List.forall_mem_cons.2 ⟨⟨relation, hinput⟩, hsettles.1⟩, hsettles.2⟩
    | error error =>
      rw [heval] at hsettles
      refine hsettles.imp_left ?_
      rintro ⟨other, hother, herror⟩
      exact ⟨other, List.mem_cons_of_mem _ hother, herror⟩

theorem settles_askAll {inputs : List String} {next : List (String × Relation) → Recipe}
    (hnext : ∀ relations, relations.map Prod.fst = inputs →
      Settles f id (next relations) [] condition good) :
    Settles f id (askAll inputs next) inputs condition good := by
  induction inputs generalizing next with
  | nil => exact hnext [] rfl
  | cons input rest ih =>
    refine settles_ask fun relation _ => ih fun relations hrelations => ?_
    exact hnext ((input, relation) :: relations) (by simp [hrelations])

end Recipe

namespace Node

variable {f : String → Except CompileError Relation} {scope : List Node} {node : Node}
  {condition : Prop} {good : Relation → Prop}

theorem settles_branches {holds : String × List UnionColumn → Prop}
    {entries : List (String × List UnionColumn)} {inputs : List String} {number : Nat}
    {next : List String → Recipe} (hinputs : entries.map Prod.fst = inputs)
    (hlength : ∀ entry ∈ entries, entry.2.length = node.outputFields.size)
    (hbranch : ∀ entry ∈ entries, ∀ relation, f entry.1 = .ok relation → ∀ number,
      Decides (Relation.unionBranch node.outputFields number entry.1 entry.2 relation)
        (holds entry))
    (hnext : ∀ found, Recipe.Settles f node.id (next found) [] condition good) :
    Recipe.Settles f node.id (node.branches number entries next) inputs
      ((∀ entry ∈ entries, holds entry) ∧ condition) good := by
  subst hinputs
  induction entries generalizing number next with
  | nil => exact (hnext []).congr (by simp)
  | cons entry rest ih =>
    obtain ⟨input, columns⟩ := entry
    rw [List.forall_mem_cons] at hlength hbranch
    rw [branches, if_neg (not_not.2 hlength.1)]
    refine Recipe.settles_ask fun relation hrelation => ?_
    have hfirst := hbranch.1 relation hrelation number
    cases hresult : Relation.unionBranch node.outputFields number input columns relation with
    | error fault =>
      rw [hresult] at hfirst
      exact Recipe.settles_fail (fun h => hfirst.1 (h.1 _ List.mem_cons_self)) hfirst.2
    | ok branch =>
      rw [hresult] at hfirst
      have hfirst : holds (input, columns) := hfirst
      refine (ih hlength.2 hbranch.2 fun found => hnext (branch :: found)).congr ?_
      simp [hfirst]

/-- A field that a check has let pass is there if the node has any fields. -/
theorem mem_names_iff_hasFields {id field : String} {fields : FieldSet}
    (h : fieldsOf? scope id = some fields) (hindexed : fields.Indexed)
    (hfield : hasField scope id field = true) : field ∈ fields.names ↔ HasFields scope id := by
  have hiff : HasFields scope id ↔ fields.isEmpty = false := by simp [HasFields, h]
  simp only [hasField, h, Bool.or_eq_true] at hfield
  rw [hiff]
  constructor
  · intro hmem
    cases hempty : fields.isEmpty with
    | false => rfl
    | true =>
      obtain ⟨other, hother, -⟩ := List.mem_map.1 hmem
      rw [FieldSet.isEmpty, List.isEmpty_iff] at hempty
      simp [hempty] at hother
  · intro hnonempty
    exact hindexed.contains_iff.1 (hfield.resolve_left (by simp [hnonempty]))

theorem forall_key_iff_hasFields {left right : String} {leftFields rightFields : FieldSet}
    (hleft : fieldsOf? scope left = some leftFields) (hleftIndexed : leftFields.Indexed)
    (hright : fieldsOf? scope right = some rightFields) (hrightIndexed : rightFields.Indexed)
    {keys : List JoinKey} (hkeys : keys ≠ [])
    (hfields : ∀ key ∈ keys, hasField scope left key.left = true ∧
      hasField scope right key.right = true) :
    (∀ key ∈ keys, key.left ∈ leftFields.names ∧ key.right ∈ rightFields.names) ↔
      HasFields scope left ∧ HasFields scope right := by
  have hkey (key : JoinKey) (hkey : key ∈ keys) :
      (key.left ∈ leftFields.names ∧ key.right ∈ rightFields.names) ↔
        HasFields scope left ∧ HasFields scope right :=
    and_congr (mem_names_iff_hasFields hleft hleftIndexed (hfields key hkey).1)
      (mem_names_iff_hasFields hright hrightIndexed (hfields key hkey).2)
  -- every key says the same of the two sides, and there is one
  obtain ⟨key, hmem⟩ := List.exists_mem_of_ne_nil keys hkeys
  exact ⟨fun h => (hkey key hmem).1 (h key hmem), fun h key hmem => (hkey key hmem).2 h⟩

/-- What is known of the inputs of a node before the node is compiled: their relations, if they
come about, have the fields that the scope gives them. -/
def InputsNamed (f : String → Except CompileError Relation) (scope : List Node) (node : Node) :
    Prop :=
  ∀ input ∈ node.inputs, ∃ fields, fieldsOf? scope input = some fields ∧ fields.Indexed ∧
    ∀ relation, f input = .ok relation → Relation.Named relation.fields fields

/-- **The recipe of a node that has passed its check** asks for all inputs of the node, and succeeds
from there on if the node renders. -/
theorem settles_recipe (hindexed : node.outputFields.Indexed)
    (hcount : Scope.takesInputs node.kind node.inputs.length = true)
    (hpassed : node.Passed scope) (hinputs : InputsNamed f scope node) :
    Recipe.Settles f node.id node.recipe node.inputs (node.Renders scope)
      fun relation => node.kind ≠ .output → Relation.Named relation.fields node.outputFields := by
  cases node with | mk id inputs config outputs lineage
  cases config with
  | view viewId filter distinct source =>
    obtain ⟨hloaded, hdistinct⟩ := hpassed
    obtain ⟨source, rfl⟩ := Option.isSome_iff_exists.1 hloaded
    obtain rfl : inputs = [] := by simpa [Scope.takesInputs, kind, NodeConfig.kind] using hcount
    refine Recipe.settles_finish ((Relation.decides_ofView hindexed viewId filter distinct
      source).congr ?_) fun relation hrelation _ => Relation.named_ofView hindexed hrelation
    have hnames : distinct.enabled = true → ∀ name ∈ distinct.fields, name ∈ outputs.names :=
      fun henabled name hname => hindexed.contains_iff.1 (hdistinct henabled name hname)
    simp only [Renders, Option.some.injEq, exists_eq_left']
    exact and_congr_right fun _ => and_iff_right hnames
  | join kind keys filter distinct =>
    obtain ⟨left, right, rfl⟩ : ∃ left right, inputs = [left, right] := by
      simpa [Scope.takesInputs, Node.kind, NodeConfig.kind, List.length_eq_two] using hcount
    obtain ⟨hkeys, hfields⟩ := hpassed
    obtain ⟨leftFields, hleft, hleftIndexed, hleftNamed⟩ := hinputs left (by simp)
    obtain ⟨rightFields, hright, hrightIndexed, hrightNamed⟩ := hinputs right (by simp)
    have hiff := forall_key_iff_hasFields hleft hleftIndexed hright hrightIndexed hkeys
      (hfields left right rfl)
    have hempty : keys.isEmpty = false := by simpa using hkeys
    simp only [recipe, hempty, Bool.false_eq_true, ↓reduceIte]
    refine Recipe.settles_ask fun l hl => Recipe.settles_ask fun r hr =>
      Recipe.settles_finish ((Relation.decides_ofJoin hindexed (hleftNamed l hl)
        (hrightNamed r hr) kind keys filter distinct left right).congr ?_)
        fun relation hrelation _ => Relation.named_ofJoin hindexed hrelation
    simp only [Renders, hiff, List.forall_mem_cons, List.not_mem_nil, IsEmpty.forall_iff,
      implies_true, and_true]
  | union kind mappings filter =>
    obtain ⟨hmappings, hcolumns⟩ := hpassed
    -- the recipe repeats checks that cannot fail any more
    have htwo : ¬inputs.length < 2 := Nat.not_lt.2 (of_decide_eq_true hcount)
    have hfst : (inputs.zip mappings).map Prod.fst = inputs :=
      List.map_fst_zip (by rw [hmappings])
    simp only [recipe, htwo, hmappings, ne_eq, not_true_eq_false, ↓reduceIte]
    refine settles_branches hfst (fun entry hentry => (hcolumns entry hentry).1)
      (fun entry hentry relation hrelation number => ?_)
      fun found => Recipe.settles_finish (Relation.decides_ofUnion outputs kind filter found)
        fun relation hrelation _ => Relation.named_ofUnion hrelation
    obtain ⟨hlength, hfields⟩ := hcolumns entry hentry
    obtain ⟨fields, hfound, hfieldsIndexed, hnamed⟩ := hinputs entry.1 (List.of_mem_zip hentry).1
    have hcolumn : ∀ column ∈ entry.2, column.isConstant = false →
        (column.field ∈ fields.names ↔ HasFields scope entry.1) := fun column hmem hconst =>
      mem_names_iff_hasFields hfound hfieldsIndexed (hfields column hmem hconst)
    refine (Relation.decides_unionBranch (hnamed relation hrelation) number entry.1
      hlength).congr ⟨?_, ?_⟩
    · rintro h ⟨column, hmem, hconst⟩
      exact (hcolumn column hmem hconst).1 (h column hmem hconst)
    · exact fun h column hmem hconst => (hcolumn column hmem hconst).2 (h ⟨column, hmem, hconst⟩)
  | sql expression =>
    obtain ⟨text, hrender⟩ := hpassed
    have hnone : inputs.isEmpty = false := by
      cases inputs <;> simp_all [Scope.takesInputs, Node.kind, NodeConfig.kind]
    simp only [recipe, hnone, Bool.false_eq_true, ↓reduceIte]
    refine Recipe.settles_askAll fun relations hrelations =>
      Recipe.settles_finish ((Relation.decides_ofExpression hrender relations).congr ?_)
        fun relation hrelation _ => Relation.named_ofExpression hrelation
    rw [hrelations]
    rfl
  | output =>
    obtain ⟨input, rfl⟩ : ∃ input, inputs = [input] := by
      simpa [Scope.takesInputs, kind, NodeConfig.kind, List.length_eq_one_iff] using hcount
    exact Recipe.settles_ask fun relation _ => Recipe.settles_finish trivial
      fun _ _ hnot => absurd rfl hnot

end Node

/-! ### Views -/

namespace View

/-- The node with the first id reads the node with the second one. -/
def Reads (view : View) (id input : String) : Prop :=
  ∃ node ∈ view.scope, node.id = id ∧ input ∈ node.inputs

/-- The node is the output node or lies behind it. -/
def Uses (view : View) (node : Node) : Prop :=
  ∃ output, view.outputNode? = some output ∧ Relation.ReflTransGen view.Reads output.id node.id

variable {view : View} {node other output : Node} {f : String → Except CompileError Relation}

namespace Validated

theorem eq_of_id_eq (hview : Validated view) (hnode : node ∈ view.scope)
    (hother : other ∈ view.scope) (hid : node.id = other.id) : node = other :=
  hview.wellFormed.eq_of_id_eq hnode hother hid

theorem lastNode?_id (hview : Validated view) (hnode : node ∈ view.scope) :
    view.lastNode? node.id = some node :=
  (lastNode?_eq_some_iff hview.wellFormed.ids).2 ⟨hnode, rfl⟩

theorem fieldsOf?_id (hview : Validated view) (hnode : node ∈ view.scope) :
    Node.fieldsOf? view.scope node.id = some node.outputFields := by
  obtain ⟨i, hi⟩ := List.mem_iff_getElem?.1 hnode
  exact Scope.fieldsOf?_id hview.wellFormed.ids hi

theorem eq_output (hview : Validated view) (houtput : view.outputNode? = some output)
    (hnode : node ∈ view.scope) (hkind : node.kind = .output) : node = output := by
  have hcount := hview.wellFormed.output
  rw [Scope.outputCount, List.countP_eq_length_filter, List.length_eq_one_iff] at hcount
  obtain ⟨only, honly⟩ := hcount
  have hmem : ∀ other ∈ view.scope, other.kind = .output → other = only := fun other hother hkind =>
    List.mem_singleton.1 (honly ▸ List.mem_filter.2 ⟨hother, decide_eq_true hkind⟩)
  rw [hmem node hnode hkind, hmem output (List.mem_of_find?_eq_some houtput)
    (by simpa using List.find?_some houtput)]

theorem exists_output (hview : Validated view) : ∃ output, view.outputNode? = some output :=
  hview.wellFormed.exists_output

/-- The nodes behind a node are the node itself and those behind its inputs. -/
theorem reads_iff (hview : Validated view) (hnode : node ∈ view.scope)
    (hother : other ∈ view.scope) :
    Relation.ReflTransGen view.Reads node.id other.id ↔
      other = node ∨ ∃ input ∈ node.inputs, Relation.ReflTransGen view.Reads input other.id := by
  rw [Relation.ReflTransGen.cases_head_iff]
  constructor
  · rintro (hid | ⟨input, ⟨reader, hreader, hid, hinput⟩, hrest⟩)
    · exact .inl (hview.eq_of_id_eq hother hnode hid.symm)
    · obtain rfl := hview.eq_of_id_eq hreader hnode hid
      exact .inr ⟨input, hinput, hrest⟩
  · rintro (rfl | ⟨input, hinput, hrest⟩)
    · exact .inl rfl
    · exact .inr ⟨input, ⟨node, hnode, rfl, hinput⟩, hrest⟩

end Validated

/-- What the compilation of a node comes to: a relation with the fields of the node, if all nodes
behind it render, and otherwise a deferred fault of one of them that does not. -/
def Outcome (view : View) (node : Node) (result : Except CompileError Relation) : Prop :=
  match result with
  | .ok relation =>
    (∀ other ∈ view.scope, Relation.ReflTransGen view.Reads node.id other.id →
      other.Renders view.scope) ∧
      (node.kind ≠ .output → Relation.Named relation.fields node.outputFields)
  | .error error =>
    ∃ other ∈ view.scope, Relation.ReflTransGen view.Reads node.id other.id ∧
      ¬other.Renders view.scope ∧ ∃ fault : NodeFault, fault.Deferred ∧ error = .node other.id fault

theorem outcome_eval (hview : Validated view) (hnode : node ∈ view.scope)
    (hinputs : ∀ input ∈ node.inputs, ∃ source ∈ view.scope, source.id = input ∧
      source.kind ≠ .output ∧ Outcome view source (f input)) :
    Outcome view node (node.recipe.eval f) := by
  have hnamed : node.InputsNamed f view.scope := fun input hinput => by
    obtain ⟨source, hsource, rfl, hkind, houtcome⟩ := hinputs input hinput
    refine ⟨_, hview.fieldsOf?_id hsource, hview.indexed source hsource, fun relation hok => ?_⟩
    rw [hok] at houtcome
    exact houtcome.2 hkind
  have hsettles := Node.settles_recipe (hview.indexed node hnode)
    (hview.wellFormed.counts node hnode) (hview.passed node hnode) hnamed
  rw [Recipe.Settles] at hsettles
  cases heval : node.recipe.eval f with
  | ok relation =>
    rw [heval] at hsettles
    obtain ⟨hall, hrenders, hgood⟩ := hsettles
    refine ⟨fun other hother hreads => ?_, hgood⟩
    rcases (hview.reads_iff hnode hother).1 hreads with rfl | ⟨input, hinput, hrest⟩
    · exact hrenders
    · obtain ⟨source, -, rfl, -, houtcome⟩ := hinputs input hinput
      obtain ⟨answer, hanswer⟩ := hall source.id hinput
      rw [hanswer] at houtcome
      exact houtcome.1 other hother hrest
  | error error =>
    rw [heval] at hsettles
    rcases hsettles with ⟨input, hinput, herror⟩ | ⟨hnot, fault, hfault, rfl⟩
    · obtain ⟨source, -, rfl, -, houtcome⟩ := hinputs input hinput
      rw [herror] at houtcome
      obtain ⟨other, hother, hreads, hblame⟩ := houtcome
      exact ⟨other, hother, (hview.reads_iff hnode hother).2 (.inr ⟨_, hinput, hreads⟩), hblame⟩
    · exact ⟨node, hnode, .refl, hnot, fault, hfault, rfl⟩

/-- **Every node behind the output comes to its outcome**, on every path of nodes that come after
it.  The induction is on the rank of the node, which its inputs lie below. -/
theorem outcome_relationFrom (hview : Validated view) {rank : String → Nat}
    (hrank : ∀ node ∈ view.scope, ∀ input ∈ node.inputs, rank input < rank node.id)
    (houtput : view.outputNode? = some output) {node : Node} {path : List String}
    (hnode : node ∈ view.scope) (hbehind : rank node.id ≤ rank output.id)
    (hpath : ∀ reader ∈ path, rank node.id < rank reader) :
    Outcome view node (view.relationFrom path node.id) := by
  have hid : node.id ∉ path := fun hmem => Nat.lt_irrefl _ (hpath _ hmem)
  rw [relationFrom_of_notMem (hview.lastNode?_id hnode) hid]
  refine outcome_eval hview hnode fun input hinput => ?_
  obtain ⟨source, hsource, rfl⟩ := List.mem_map.1 (hview.wellFormed.known node hnode input hinput)
  have hlt : rank source.id < rank node.id := hrank node hnode source.id hinput
  refine ⟨source, hsource, rfl, fun hkind => ?_, ?_⟩
  · -- an output node among the inputs would be the output itself, which lies higher
    obtain rfl := hview.eq_output houtput hsource hkind
    omega
  · refine outcome_relationFrom hview hrank houtput hsource (by omega) fun reader hreader => ?_
    rcases List.mem_cons.1 hreader with rfl | hreader
    · exact hlt
    · exact hlt.trans (hpath reader hreader)
termination_by rank node.id

/-- **A checked view compiles exactly if all nodes behind its output render.**  If it does not, the
error is a deferred fault of a node behind the output that does not render. -/
theorem toSql_agrees [Readers] {settings : QuerySettings} {view valid : View}
    (hchecked : view.checked settings = .ok valid) (hcustom : view.isAtomic = false)
    (hsources : ∀ node ∈ view.scope, ∀ source, node.source? = some source → source.engine = .sql)
    (hindexed : ∀ node ∈ view.scope, node.outputFields.Indexed) :
    ((∃ compiled, valid.toSql = .ok compiled) ↔
      ∀ node ∈ valid.scope, valid.Uses node → node.Renders valid.scope) ∧
    ∀ error, valid.toSql = .error error →
      ∃ node ∈ valid.scope, valid.Uses node ∧ ¬node.Renders valid.scope ∧
        ∃ fault : NodeFault, fault.Deferred ∧ error = .node node.id fault := by
  have hview := validated_of_checked hchecked hcustom hsources hindexed
  obtain ⟨output, houtput⟩ := hview.exists_output
  obtain ⟨rank, hrank⟩ := hview.ranked
  have houtcome : Outcome valid output (valid.relationOf output.id) :=
    outcome_relationFrom hview hrank houtput (List.mem_of_find?_eq_some houtput) (Nat.le_refl _)
      (by simp)
  have hanswer : (Memo.viewSql valid {}).1 = (valid.relationOf output.id).map Relation.sql := by
    rw [show Memo.viewSql valid {} = Memo.answer valid .view {} from rfl,
      (Memo.answer_eq (Memo.agrees_empty valid) .view).1, plainAnswer, hview.custom, houtput]
    rfl
  have huses : ∀ node, valid.Uses node ↔ Relation.ReflTransGen valid.Reads output.id node.id := by
    simp [Uses, houtput]
  simp only [huses, toSql]
  rcases hviewSql : Memo.viewSql valid {} with ⟨result, memo⟩
  obtain rfl : result = (valid.relationOf output.id).map Relation.sql := by
    rw [← hanswer, hviewSql]
  cases hrelation : valid.relationOf output.id with
  | ok relation =>
    rw [hrelation] at houtcome
    refine ⟨⟨fun _ => houtcome.1, fun _ => ⟨_, rfl⟩⟩, fun error herror => ?_⟩
    cases herror
  | error error =>
    rw [hrelation] at houtcome
    obtain ⟨node, hnode, hreads, hnot, hfault⟩ := houtcome
    refine ⟨⟨fun hok => ?_, fun hall => absurd (hall node hnode hreads) hnot⟩,
      fun other hother => ?_⟩
    · obtain ⟨_, hok⟩ := hok
      cases hok
    · obtain rfl : error = other := Except.error.inj hother
      exact ⟨node, hnode, hreads, hnot, hfault⟩

/-- What the customers of current and archived orders have ordered for, where a filter picks the
orders. -/
def ofCustomers (picked : Filter) : View where
  id := "totals"
  kind := .custom
  engine := .sql
  scope :=
    [{ id := "current"
       config := .view "o" (some (.leaf "status" "!=" (.string "void"))) {} (some
         { atomic "o" "orders" .sql with
           fields := .ofList
             [.ofName "customer" .long, .ofName "amount" .double, .ofName "status" .keyword] })
       outputFields := .ofList [.ofName "customer" .long, .ofName "amount" .double] },
      { id := "archived"
        config := .view "a" none {} (some (.atomic "a" "archive" .sql))
        outputFields := .ofList [.ofName "customer" .long, .ofName "amount" .double] },
      { id := "orders"
        inputs := ["current", "archived"]
        config := .union .all (.replicate 2 [{ field := "customer" }, { field := "amount" }])
          (some picked)
        outputFields := .ofList [.ofName "customer" .long, .ofName "amount" .double] },
      { id := "customers"
        config := .view "c" none {} (some (.atomic "c" "customers" .sql))
        outputFields := .ofList [.ofName "id" .long, .ofName "name" .keyword] },
      { id := "named"
        inputs := ["orders", "customers"]
        config := .join .left [{ left := "customer", right := "id" }] none {}
        outputFields := .ofList [.ofName "name" .keyword, .ofName "amount" .double] },
      { id := "totals"
        inputs := ["named"]
        config := .sql
          "SELECT name, sum(amount) AS total FROM \x7b\x7b.named\x7d\x7d GROUP BY name" },
      { id := "out", inputs := ["totals"], config := .output }]

/-- The view renders with a comparison of amounts, and not with a full-text search of them. -/
theorem toSql_agrees_ofCustomers :
    (∃ valid, (ofCustomers (.leaf "amount" ">" (.nat 10))).checked {} = .ok valid ∧
      (∃ compiled, valid.toSql = .ok compiled) ∧
        ∀ node ∈ valid.scope, valid.Uses node → node.Renders valid.scope) ∧
    ∃ valid, (ofCustomers (.leaf "amount" "match" (.nat 10))).checked {} = .ok valid ∧
      ∃ node ∈ valid.scope, valid.Uses node ∧ ¬node.Renders valid.scope ∧
        ∃ fault : NodeFault, fault.Deferred ∧ valid.toSql = .error (.node node.id fault) := by
  have hcompiles : ((ofCustomers (.leaf "amount" ">" (.nat 10))).checked {}).toOption.any
      (fun valid => valid.toSql.toBool) = true := by decide +kernel
  have hfails : ((ofCustomers (.leaf "amount" "match" (.nat 10))).checked {}).toOption.any
      (fun valid => !valid.toSql.toBool) = true := by decide +kernel
  have hsources (picked : Filter) : ∀ node ∈ (ofCustomers picked).scope, ∀ source,
      node.source? = some source → source.engine = .sql := by
    simp [ofCustomers, Node.source?, View.atomic]
  have hindexed (picked : Filter) : ∀ node ∈ (ofCustomers picked).scope,
      node.outputFields.Indexed := by
    simp [ofCustomers, FieldSet.indexed_ofList, FieldSet.indexed_empty]
  constructor
  · obtain ⟨valid, hvalid, hok⟩ := (Option.any_eq_true _ _).1 hcompiles
    have hchecked := Result.toOption_eq_some.1 hvalid
    have hagrees := (toSql_agrees hchecked rfl (hsources _) (hindexed _)).1
    cases hsql : valid.toSql with
    | error error => simp [hsql, Except.toBool] at hok
    | ok compiled =>
      have hrenders := hagrees.1 ⟨compiled, hsql⟩
      exact ⟨valid, hchecked, ⟨compiled, hsql⟩, hrenders⟩
  · obtain ⟨valid, hvalid, hnot⟩ := (Option.any_eq_true _ _).1 hfails
    have hchecked := Result.toOption_eq_some.1 hvalid
    have hblames := (toSql_agrees hchecked rfl (hsources _) (hindexed _)).2
    cases hsql : valid.toSql with
    | ok compiled => simp [hsql, Except.toBool] at hnot
    | error error =>
      obtain ⟨node, hnode, huses, hnot, fault, hfault, rfl⟩ := hblames error hsql
      exact ⟨valid, hchecked, node, hnode, huses, hnot, fault, hfault, hsql⟩

end View

end ViewCompiler
