import ViewCompiler.Proofs.Json.Record
import ViewCompiler.Proofs.Relation.Memo
import Mathlib.Data.List.Forall2
import Mathlib.Data.List.Nodup

/-!
# Only the nodes behind the output count

The compilation of a view starts at its output node and goes into the inputs of joins, unions, SQL
expressions and the output.  What it leaves out has no effect on it, and it leaves no trace there.

* `Node.drawn`: the inputs that the compilation of a node goes into.
* `Recipe.Takes`: a recipe asks for given inputs, one after another, unless it fails before.
* `View.DrawsOn`, `View.Reaches`: one step into an input, and the nodes that such steps lead to
  from the output.
* `Memo.Extends` is what one compilation does to the nodes of a memo;
  `Memo.extends_relationOfWithin` derives it from the same fact about the inputs.
* `View.relationFrom_congr`: views that reach the same nodes give them the same relations.
* `View.toSql_reaches`: **the statement of a view marks exactly the nodes that its output reaches,
  and depends on no other node**.
-/

namespace ViewCompiler

/-! ### Inputs of recipes -/

/-- The inputs that the compilation of a node goes into: a view node reads a table. -/
def Node.drawn (node : Node) : List String :=
  match node.config with
  | .view .. => []
  | _ => node.inputs

namespace Recipe

/-- The recipe asks for the inputs, one after another, unless it fails before. -/
inductive Takes : List String → Recipe → Prop
  | failed (inputs : List String) (error : CompileError) : Takes inputs (.done (.error error))
  | finished (result : Except CompileError Relation) : Takes [] (.done result)
  | ask {input : String} {inputs : List String} {next : Relation → Recipe}
      (hnext : ∀ relation, Takes inputs (next relation)) : Takes (input :: inputs) (.ask input next)

theorem takes_fail (inputs : List String) (id : String) (fault : NodeFault) :
    Takes inputs (fail id fault) :=
  .failed inputs _

theorem takes_askAll {inputs : List String} {next : List (String × Relation) → Recipe}
    (hnext : ∀ relations, Takes [] (next relations)) : Takes inputs (askAll inputs next) := by
  induction inputs generalizing next with
  | nil => exact hnext []
  | cons input rest ih => exact .ask fun relation => ih fun relations => hnext _

theorem takes_branches {node : Node} {number : Nat} {entries : List (String × List UnionColumn)}
    {next : List String → Recipe} (hnext : ∀ found, Takes [] (next found)) :
    Takes (entries.map Prod.fst) (node.branches number entries next) := by
  induction entries generalizing number next with
  | nil => exact hnext []
  | cons entry rest ih =>
    obtain ⟨input, columns⟩ := entry
    rw [Node.branches]
    split
    · exact takes_fail _ _ _
    · refine .ask fun relation => ?_
      split
      · exact takes_fail _ _ _
      · exact ih fun found => hnext _

theorem Takes.of_mem_asked {f : String → Except CompileError Relation} {recipe : Recipe}
    {inputs : List String} (h : Takes inputs recipe) {input : String}
    (hinput : input ∈ recipe.asked f) : input ∈ inputs := by
  induction h with
  | failed | finished => exact absurd hinput List.not_mem_nil
  | @ask first rest next _ ih =>
    rw [asked] at hinput
    rcases List.mem_cons.1 hinput with rfl | hinput
    · exact List.mem_cons_self
    · cases hfirst : f first with
      | error error => simp [hfirst] at hinput
      | ok relation =>
        rw [hfirst] at hinput
        exact List.mem_cons_of_mem _ (ih relation hinput)

end Recipe

theorem Node.takes_recipe (node : Node) : node.recipe.Takes node.drawn := by
  have hfinish : ∀ result, Recipe.Takes [] (node.finish result) := fun _ => .finished _
  rw [recipe, drawn]
  cases node.config with
  | view => exact hfinish _
  | join =>
    dsimp only
    split
    · next left right hinputs =>
      split
      · exact Recipe.takes_fail _ _ _
      · rw [hinputs]
        exact .ask fun _ => .ask fun _ => hfinish _
    · exact Recipe.takes_fail _ _ _
  | union kind mappings filter =>
    dsimp only
    split
    · exact Recipe.takes_fail _ _ _
    split
    · exact Recipe.takes_fail _ _ _
    · next hlength =>
      -- there is a mapping for each input, so the branches take all of them
      have hzip : (node.inputs.zip mappings).map Prod.fst = node.inputs :=
        List.map_fst_zip (by omega)
      have htakes : Recipe.Takes ((node.inputs.zip mappings).map Prod.fst)
          (node.branches 1 (node.inputs.zip mappings) fun found =>
            node.finish (Relation.ofUnion node.outputFields kind filter found)) :=
        Recipe.takes_branches fun _ => hfinish _
      rwa [hzip] at htakes
  | sql =>
    dsimp only
    split
    · exact Recipe.takes_fail _ _ _
    · exact Recipe.takes_askAll fun _ => hfinish _
  | output =>
    dsimp only
    split
    · next hinputs =>
      rw [hinputs]
      exact .ask fun _ => hfinish _
    · exact Recipe.takes_fail _ _ _

/-! ### Steps into inputs -/

namespace View

/-- The compilation of the node with the first id goes into the node with the second one. -/
def DrawsOn (view : View) (id input : String) : Prop :=
  ∃ node ∈ view.scope, node.id = id ∧ input ∈ node.drawn

/-- The node is the output node, or the compilation of the output node comes to it through the
inputs of joins, unions, SQL expressions and the output. -/
def Reaches (view : View) (node : Node) : Prop :=
  node ∈ view.scope ∧
    ∃ output, view.outputNode? = some output ∧ Relation.ReflTransGen view.DrawsOn output.id node.id

end View

/-! ### The nodes of a memo -/

namespace Memo

/-- The node with an id has been compiled. -/
def Holds (memo : Memo) (id : String) : Prop := (memo.relations.get? id).isSome

/-- Whatever a compiled node draws on has been compiled as well. -/
def Closed (view : View) (memo : Memo) : Prop :=
  ∀ id input, memo.Holds id → view.DrawsOn id input → memo.Holds input

variable {view : View} {memo : Memo} {roots : List String}
  {outcome : Except CompileError Relation × Memo}

/-- What the compilation of some nodes does to the nodes of a memo: it adds only nodes that these
draw on, and if it succeeds it adds the nodes themselves. -/
structure Extends (view : View) (roots : List String) (memo : Memo)
    (outcome : Except CompileError Relation × Memo) : Prop where
  closed : outcome.2.Closed view
  kept : ∀ id, memo.Holds id → outcome.2.Holds id
  added : ∀ id, outcome.2.Holds id →
    memo.Holds id ∨ ∃ root ∈ roots, Relation.ReflTransGen view.DrawsOn root id
  finished : ∀ relation, outcome.1 = .ok relation → ∀ root ∈ roots, outcome.2.Holds root

theorem extends_self {result : Except CompileError Relation} (hclosed : memo.Closed view)
    (hresult : ∀ relation, result = .ok relation → ∀ root ∈ roots, memo.Holds root) :
    Extends view roots memo (result, memo) :=
  ⟨hclosed, fun _ h => h, fun _ h => .inl h, hresult⟩

/-- The nodes under way are no part of what a memo holds. -/
theorem Extends.revisit {visiting : List String} {result : Except CompileError Relation}
    {after : Memo} (h : Extends view roots { memo with visiting } (result, after))
    (left : List String) : Extends view roots memo (result, { after with visiting := left }) :=
  ⟨h.closed, h.kept, h.added, h.finished⟩

/-- A recipe extends a memo by what its inputs draw on, if each of its requests does. -/
theorem extends_run {request : String → Memo → Except CompileError Relation × Memo}
    (hrequest : ∀ input memo, memo.Closed view → Extends view [input] memo (request input memo))
    {recipe : Recipe} (htakes : recipe.Takes roots) (hclosed : memo.Closed view) :
    Extends view roots memo (recipe.run request memo) := by
  induction htakes generalizing memo with
  | failed => exact extends_self hclosed (by simp)
  | finished => exact extends_self hclosed (by simp)
  | @ask input rest next _ ih =>
    have hfirst := hrequest input memo hclosed
    rw [Recipe.run]
    rcases hanswer : request input memo with ⟨result, between⟩
    rw [hanswer] at hfirst
    have hadded : ∀ id, between.Holds id → memo.Holds id ∨
        ∃ root ∈ input :: rest, Relation.ReflTransGen view.DrawsOn root id := by
      intro id hid
      rcases hfirst.added id hid with hid | ⟨root, hroot, hsteps⟩
      · exact .inl hid
      · exact .inr ⟨root, List.mem_singleton.1 hroot ▸ List.mem_cons_self, hsteps⟩
    cases result with
    | error error => exact ⟨hfirst.closed, hfirst.kept, hadded, by simp⟩
    | ok relation =>
      have hrest := ih relation hfirst.closed
      refine ⟨hrest.closed, fun id hid => hrest.kept id (hfirst.kept id hid), fun id hid => ?_,
        fun result hresult => ?_⟩
      · rcases hrest.added id hid with hid | ⟨root, hroot, hsteps⟩
        · exact hadded id hid
        · exact .inr ⟨root, List.mem_cons_of_mem _ hroot, hsteps⟩
      · refine List.forall_mem_cons.2 ⟨?_, hrest.finished result hresult⟩
        exact hrest.kept input (hfirst.finished relation rfl input List.mem_cons_self)

theorem Extends.added_node {node : Node} (hnode : node ∈ view.scope)
    (h : Extends view node.drawn memo outcome) {id : String} (hid : outcome.2.Holds id) :
    memo.Holds id ∨ ∃ root ∈ [node.id], Relation.ReflTransGen view.DrawsOn root id := by
  rcases h.added id hid with hid | ⟨input, hinput, hsteps⟩
  · exact .inl hid
  · exact .inr ⟨node.id, List.mem_cons_self, .head ⟨node, hnode, rfl, hinput⟩ hsteps⟩

theorem Extends.keep {node : Node} {relation : Relation} {result : Except CompileError Relation}
    {after : Memo} (hids : (view.scope.map Node.id).Nodup) (hnode : node ∈ view.scope)
    (h : Extends view node.drawn memo (result, after)) (hresult : result = .ok relation) :
    Extends view [node.id] memo
      (result, { after with relations := after.relations.insert node.id relation }) := by
  have hholds : ∀ id,
      Holds { after with relations := after.relations.insert node.id relation } id ↔
        node.id = id ∨ after.Holds id := by
    intro id
    simp only [Holds, KeyMap.get?_insert]
    split <;> simp_all
  refine ⟨fun id input hid hdraws => ?_, fun id hid => (hholds id).2 (.inr (h.kept id hid)),
    fun id hid => ?_, ?_⟩
  · refine (hholds input).2 (.inr ?_)
    rcases (hholds id).1 hid with rfl | hid
    · -- the node itself: its inputs have just been compiled
      obtain ⟨found, hfound, hsame, hinput⟩ := hdraws
      obtain rfl := List.inj_on_of_nodup_map hids hfound hnode hsame
      exact h.finished relation hresult input hinput
    · exact h.closed id input hid hdraws
  · rcases (hholds id).1 hid with rfl | hid
    · exact .inr ⟨node.id, List.mem_cons_self, .refl⟩
    · exact h.added_node hnode hid
  · intro _ _ root hroot
    exact (hholds root).2 (.inl (List.mem_singleton.1 hroot).symm)

/-- A node that fails leaves in the memo what it draws on, as far as it has come. -/
theorem Extends.drop {node : Node} {error : CompileError} {after : Memo}
    (hnode : node ∈ view.scope) (h : Extends view node.drawn memo (.error error, after)) :
    Extends view [node.id] memo (.error error, after) :=
  ⟨h.closed, h.kept, fun _ hid => h.added_node hnode hid, by simp⟩

/-- **One compilation adds what its node draws on**, whether it succeeds or fails. -/
theorem extends_relationOfWithin (hids : (view.scope.map Node.id).Nodup) (fuel : Nat) (id : String)
    (memo : Memo) (hclosed : memo.Closed view) :
    Extends view [id] memo (relationOfWithin view fuel id memo) := by
  induction fuel generalizing id memo with
  | zero =>
    rw [relationOfWithin]
    split
    · next relation hget => exact extends_self hclosed (by simp [Holds, hget])
    · split
      · exact extends_self hclosed (by simp)
      · split <;> exact extends_self hclosed (by simp)
  | succ fuel ih =>
    rw [relationOfWithin]
    split
    · next relation hget => exact extends_self hclosed (by simp [Holds, hget])
    split
    · exact extends_self hclosed (by simp)
    next node hnode =>
    split
    · exact extends_self hclosed (by simp)
    obtain ⟨hmem, rfl⟩ := (View.lastNode?_eq_some_iff hids).1 hnode
    have hentered : Closed view { memo with visiting := node.id :: memo.visiting } := hclosed
    have hrun := extends_run ih node.takes_recipe hentered
    rcases hafter : node.recipe.run (relationOfWithin view fuel)
        { memo with visiting := node.id :: memo.visiting } with ⟨result, after⟩
    rw [hafter] at hrun
    have hleft := hrun.revisit (after.visiting.filter (· ≠ node.id))
    simp only [hafter]
    cases result with
    | error error => exact hleft.drop hmem
    | ok relation => exact hleft.keep hids hmem rfl

theorem closed_empty (view : View) : Closed view {} := by
  intro id input hid
  simp [Holds] at hid

/-- **A node that has been compiled from nothing leaves exactly the nodes that it draws on.** -/
theorem holds_iff_of_relationOf (hids : (view.scope.map Node.id).Nodup) {root : String}
    {relation : Relation} {after : Memo} (h : relationOf view root {} = (.ok relation, after))
    (id : String) : after.Holds id ↔ Relation.ReflTransGen view.DrawsOn root id := by
  have hextends := extends_relationOfWithin hids (view.scope.length + 1) root {} (closed_empty view)
  rw [relationOf] at h
  rw [h] at hextends
  constructor
  · intro hid
    rcases hextends.added id hid with hnone | ⟨other, hother, hsteps⟩
    · simp [Holds] at hnone
    · rwa [List.mem_singleton.1 hother] at hsteps
  · intro hsteps
    induction hsteps with
    | refl => exact hextends.finished relation rfl root List.mem_cons_self
    | tail _ hstep ih => exact hextends.closed _ _ ih hstep

end Memo

/-! ### Views that reach the same nodes -/

namespace View

variable {view other : View} {node output : Node} {id : String}

/-- What the output draws on is reached by way of nodes, so another view that reaches the same
nodes takes the same steps. -/
theorem steps_of_reaches (houtput : view.outputNode? = some output)
    (hsame : ∀ node, view.Reaches node → other.Reaches node)
    (h : Relation.ReflTransGen view.DrawsOn output.id id) :
    Relation.ReflTransGen other.DrawsOn output.id id := by
  induction h with
  | refl => exact .refl
  | tail hsteps hstep ih =>
    obtain ⟨node, hnode, rfl, hinput⟩ := hstep
    have hreaches : view.Reaches node := ⟨hnode, output, houtput, hsteps⟩
    exact ih.tail ⟨node, (hsame node hreaches).1, rfl, hinput⟩

/-- **Views that reach the same nodes from the same output give them the same relations**, on every
path. -/
theorem relationFrom_congr (hids : (view.scope.map Node.id).Nodup)
    (hids' : (other.scope.map Node.id).Nodup) (houtput : view.outputNode? = some output)
    (houtput' : other.outputNode? = some output)
    (hsame : ∀ node, view.Reaches node ↔ other.Reaches node) (path : List String) (id : String)
    (hsteps : Relation.ReflTransGen view.DrawsOn output.id id) :
    view.relationFrom path id = other.relationFrom path id := by
  have hsteps' := steps_of_reaches houtput (fun node => (hsame node).1) hsteps
  -- the same node has the id in both views, if there is one
  have hnodes : view.lastNode? id = other.lastNode? id := by
    ext node
    rw [lastNode?_eq_some_iff hids, lastNode?_eq_some_iff hids']
    constructor
    · rintro ⟨hnode, rfl⟩
      exact ⟨((hsame node).1 ⟨hnode, output, houtput, hsteps⟩).1, rfl⟩
    · rintro ⟨hnode, rfl⟩
      exact ⟨((hsame node).2 ⟨hnode, output, houtput', hsteps'⟩).1, rfl⟩
  cases hfound : view.lastNode? id with
  | none => rw [relationFrom_of_none hfound, relationFrom_of_none (hnodes ▸ hfound)]
  | some node =>
    have hfound' : other.lastNode? id = some node := hnodes ▸ hfound
    by_cases hpath : id ∈ path
    · rw [relationFrom_of_mem hfound hpath, relationFrom_of_mem hfound' hpath]
    · have hdec := length_idsAhead_lt (mem_ids_of_lastNode? hfound) hpath
      rw [relationFrom_of_notMem hfound hpath, relationFrom_of_notMem hfound' hpath]
      refine Recipe.eval_congr fun input hinput => ?_
      obtain ⟨hnode, hid⟩ := (lastNode?_eq_some_iff hids').1 hfound'
      have hinput : input ∈ node.drawn := node.takes_recipe.of_mem_asked hinput
      have hstep : view.DrawsOn id input :=
        ⟨node, ((lastNode?_eq_some_iff hids).1 hfound).1, hid, hinput⟩
      exact relationFrom_congr hids hids' houtput houtput' hsame (id :: path) input
        (hsteps.tail hstep)
termination_by (view.idsAhead path).length

theorem map_fst_toSql (view : View) :
    view.toSql.map Prod.fst = view.plainAnswer .view := by
  rw [← (Memo.answer_eq (Memo.agrees_empty view) .view).1, toSql, Memo.answer]
  rcases Memo.viewSql view {} with ⟨result, memo⟩
  cases result <;> rfl

/-- The nodes after the compilation: those that the output reaches have the fields of their
relations, all others are as they were. -/
def Marked (view : View) (node after : Node) : Prop :=
  (view.Reaches node → ∃ relation, view.relationOf node.id = .ok relation ∧
    after = { node with lineage := some relation.fields }) ∧
  (¬view.Reaches node → after = node)

theorem marked_of_toSql (hcustom : view.isAtomic = false) (hids : (view.scope.map Node.id).Nodup)
    {sql : String} {after : View} (h : view.toSql = .ok (sql, after)) :
    after = { view with scope := after.scope } ∧
      List.Forall₂ view.Marked view.scope after.scope := by
  rw [toSql, Memo.viewSql, if_neg (by simp [hcustom])] at h
  cases houtput : view.outputNode? with
  | none => simp [houtput] at h
  | some output =>
    simp only [houtput, Memo.nodeSql] at h
    obtain ⟨memo, hmemo, hanswer, -⟩ := Memo.relationOf_eq (Memo.agrees_empty view) output.id
    cases hrelation : view.relationOf output.id with
    | error error => simp [hanswer, hrelation, Except.map] at h
    | ok relation =>
      rw [hrelation] at hanswer
      rw [hanswer] at h
      obtain ⟨-, rfl⟩ := Prod.mk.inj (Except.ok.inj h)
      refine ⟨rfl, ?_⟩
      refine List.forall₂_map_right_iff.2 (List.forall₂_same.2 fun node hnode => ?_)
      have hholds := Memo.holds_iff_of_relationOf hids hanswer node.id
      have hlineage : memo.lineage.get? node.id =
          (memo.relations.get? node.id).map Relation.fields :=
        KeyMap.get?_mapValues _ _ _
      constructor
      · rintro ⟨-, found, hfound, hsteps⟩
        obtain rfl : output = found := Option.some.inj (houtput.symm.trans hfound)
        obtain ⟨kept, hkept⟩ := Option.isSome_iff_exists.1 (hholds.2 hsteps)
        exact ⟨kept, hmemo.sound _ _ hkept, by rw [hlineage, hkept]; rfl⟩
      · intro hnot
        have hnone : memo.relations.get? node.id = none := by
          rw [← Option.not_isSome_iff_eq_none]
          exact fun hkept => hnot ⟨hnode, output, houtput, hholds.1 hkept⟩
        rw [hlineage, hnone]
        rfl

/-- **The statement of a view marks exactly the nodes that its output reaches, and depends on no
other node**: a view with the same output node that reaches the same nodes has the same statement,
or fails with the same error. -/
theorem toSql_reaches {view : View} (hcustom : view.isAtomic = false)
    (hids : (view.scope.map Node.id).Nodup) :
    (∀ sql after, view.toSql = .ok (sql, after) →
      after = { view with scope := after.scope } ∧
        List.Forall₂ view.Marked view.scope after.scope) ∧
    ∀ other : View, other.isAtomic = false → (other.scope.map Node.id).Nodup →
      view.outputNode? = other.outputNode? → (∀ node, view.Reaches node ↔ other.Reaches node) →
        view.toSql.map Prod.fst = other.toSql.map Prod.fst := by
  refine ⟨fun sql after h => marked_of_toSql hcustom hids h,
    fun other hcustom' hids' houtputs hsame => ?_⟩
  rw [map_fst_toSql, map_fst_toSql, plainAnswer, plainAnswer, if_neg (by simp [hcustom]),
    if_neg (by simp [hcustom']), ← houtputs]
  cases houtput : view.outputNode? with
  | none => rfl
  | some output =>
    have hrelation : view.relationOf output.id = other.relationOf output.id :=
      relationFrom_congr hids hids' houtput (houtputs ▸ houtput) hsame [] output.id .refl
    simp only [hrelation]

/-- The node that reads the orders. -/
def ordersRead : Node where
  id := "rows"
  config := .view "t" none {} (some (.atomic "t" "orders" .sql))
  outputFields := .ofList [.ofName "id" .long]

/-- The node that gives out the orders. -/
def ordersGiven : Node where
  id := "out"
  config := .output
  inputs := ["rows"]

/-- A view of the orders, with nodes beside it. -/
def ofOrders (beside : List Node) : View where
  id := "orders"
  kind := .custom
  engine := .sql
  scope := ordersRead :: ordersGiven :: beside

/-- A join that has no keys, reads a node that is not there and is read by no node. -/
def draft : Node where
  id := "draft"
  config := .join .inner [] none {}
  inputs := ["rows", "ghost"]

theorem reaches_ofOrders_iff {beside : List Node}
    (hbeside : ∀ other ∈ beside, other.id ≠ "rows" ∧ other.id ≠ "out") (node : Node) :
    (ofOrders beside).Reaches node ↔ node = ordersRead ∨ node = ordersGiven := by
  have hsteps : ∀ id, Relation.ReflTransGen (ofOrders beside).DrawsOn "out" id →
      id = "out" ∨ id = "rows" := by
    intro id h
    induction h with
    | refl => exact .inl rfl
    | tail _ hstep ih =>
      obtain ⟨reader, hreader, rfl, hinput⟩ := hstep
      rcases List.mem_cons.1 hreader with rfl | hreader
      · exact absurd hinput List.not_mem_nil
      rcases List.mem_cons.1 hreader with rfl | hreader
      · exact .inr (List.mem_singleton.1 hinput)
      · exact absurd ih (by simp [hbeside reader hreader])
  constructor
  · rintro ⟨hnode, output, houtput, h⟩
    obtain rfl : ordersGiven = output := Option.some.inj houtput
    rcases List.mem_cons.1 hnode with rfl | hnode
    · exact .inl rfl
    rcases List.mem_cons.1 hnode with rfl | hnode
    · exact .inr rfl
    · exact absurd (hsteps node.id h) (by simp [hbeside node hnode])
  · rintro (rfl | rfl)
    · exact ⟨.head _, ordersGiven, rfl, .single ⟨ordersGiven, .tail _ (.head _), rfl, .head _⟩⟩
    · exact ⟨.tail _ (.head _), ordersGiven, rfl, .refl⟩

/-- A node beside the view keeps its own fault to itself. -/
theorem toSql_reaches_draft :
    (∃ sql after, (ofOrders [draft]).toSql = .ok (sql, after) ∧
      List.Forall₂ (ofOrders [draft]).Marked (ofOrders [draft]).scope after.scope) ∧
    (ofOrders [draft]).toSql.map Prod.fst = (ofOrders []).toSql.map Prod.fst := by
  have hids : ((ofOrders [draft]).scope.map Node.id).Nodup := by decide
  have hcustom : (ofOrders [draft]).isAtomic = false := rfl
  obtain ⟨hmarked, hsame⟩ := toSql_reaches hcustom hids
  refine ⟨⟨_, _, rfl, (hmarked _ _ rfl).2⟩, hsame (ofOrders []) rfl (by decide) rfl fun node => ?_⟩
  rw [reaches_ofOrders_iff (by simp [draft]), reaches_ofOrders_iff (by simp)]

end View

end ViewCompiler
