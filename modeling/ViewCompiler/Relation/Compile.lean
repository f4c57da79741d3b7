import ViewCompiler.Relation.Basic

/-!
# Compiling scopes to SQL

* `Memo.relationOf`: the relation of a node, where every node is compiled once and its relation is
  kept. A set of nodes under way turns a cycle into an error.
* `View.relationOf`: the relation of a node by plain recursion, without a memo; a node that is met
  again among its own readers is the cycle. `View.length_idsAhead_lt` is why the recursion ends.
* `View.toSql`: the statement of a view, recorded together with the fields of the compiled nodes.

If two nodes have the same id, the last one counts.
-/

namespace ViewCompiler

/-- The last node with an id. -/
def View.lastNode? (view : View) (id : String) : Option Node :=
  view.scope.reverse.find? fun node => node.id = id

/-- What has been compiled and what is under way. -/
structure Memo where
  /-- The relations of the compiled nodes. -/
  relations : KeyMap Relation := []
  /-- The nodes whose compilation is under way. -/
  visiting : List String := []
  deriving Inhabited

namespace Memo

/-- The relation of a node, with `fuel` nodes left to go into. -/
def relationOfWithin (view : View) : Nat → String → Memo → Except CompileError Relation × Memo
  | fuel, id, memo =>
    match memo.relations.get? id with
    | some relation => (.ok relation, memo)
    | none => match view.lastNode? id with
      | none => (.error (.unknownNode id), memo)
      | some node =>
        if memo.visiting.contains id then (.error (.node id .cycle), memo)
        else match fuel with
          | 0 => (.error (.node id .cycle), memo)
          | fuel + 1 =>
            let entered := { memo with visiting := id :: memo.visiting }
            let (result, after) := node.recipe.run (relationOfWithin view fuel) entered
            let left := { after with visiting := after.visiting.filter (· ≠ id) }
            match result with
            | .error error => (.error error, left)
            | .ok relation => (.ok relation, { left with
                relations := left.relations.insert id relation })

/-- The relation of a node. -/
def relationOf (view : View) (id : String) (memo : Memo) : Except CompileError Relation × Memo :=
  relationOfWithin view (view.scope.length + 1) id memo

/-- The statement of a node. -/
def nodeSql (view : View) (id : String) (memo : Memo) : Except CompileError String × Memo :=
  let (result, memo) := relationOf view id memo
  (result.map Relation.sql, memo)

/-- The statement of the view: that of its table or that of its output node. -/
def viewSql (view : View) (memo : Memo) : Except CompileError String × Memo :=
  if view.isAtomic then (view.tableSql, memo)
  else match view.outputNode? with
    | none => (.error .noOutputNode, memo)
    | some output => nodeSql view output.id memo

/-- The fields of the compiled nodes. -/
def lineage (memo : Memo) : KeyMap FieldSet := memo.relations.mapValues Relation.fields

end Memo

namespace View

/-- The ids that a recursion through `path` has not come to, as often as they occur. -/
def idsAhead (view : View) (path : List String) : List String :=
  (view.scope.map Node.id).filter fun id => !path.contains id

theorem mem_ids_of_lastNode? {view : View} {id : String} {node : Node}
    (h : view.lastNode? id = some node) : id ∈ view.scope.map Node.id := by
  have hid : node.id = id := by simpa using List.find?_some h
  have hmem : node ∈ view.scope := by simpa using List.mem_of_find?_eq_some h
  exact List.mem_map.2 ⟨node, hmem, hid⟩

/-- Going into a node leaves fewer nodes ahead. -/
theorem length_idsAhead_lt {view : View} {path : List String} {id : String}
    (hid : id ∈ view.scope.map Node.id) (hpath : id ∉ path) :
    (view.idsAhead (id :: path)).length < (view.idsAhead path).length := by
  have hsub : view.idsAhead (id :: path) = (view.idsAhead path).filter (· ≠ id) := by
    simp only [idsAhead, List.filter_filter]
    congr 1
    funext other
    simp
  rw [hsub, List.length_filter_lt_length_iff_exists]
  exact ⟨id, by simpa [idsAhead, hpath] using hid, by simp⟩

/-- The relation of a node by plain recursion, where `path` holds the nodes that the recursion came
through: the recursion ends because every node that it goes into is new. -/
def relationFrom (view : View) (path : List String) (id : String) : Except CompileError Relation :=
  match _found : view.lastNode? id with
  | none => .error (.unknownNode id)
  | some node =>
    if _onPath : id ∈ path then .error (.node id .cycle)
    else node.recipe.eval fun input => relationFrom view (id :: path) input
termination_by (view.idsAhead path).length
decreasing_by exact length_idsAhead_lt (mem_ids_of_lastNode? _found) _onPath

/-- The relation of a node by plain recursion. -/
def relationOf (view : View) (id : String) : Except CompileError Relation :=
  view.relationFrom [] id

/-- The nodes with the fields of their relations, where they were compiled. -/
def withLineage (view : View) (lineage : KeyMap FieldSet) : View :=
  { view with
    scope := view.scope.map fun node =>
      match lineage.get? node.id with
      | none => node
      | some fields => { node with lineage := some fields } }

/-- The statement of the view, and the view with the fields of its compiled nodes. -/
def toSql (view : View) : Except CompileError (String × View) :=
  match Memo.viewSql view {} with
  | (.error error, _) => .error error
  | (.ok sql, memo) => .ok (sql, view.withLineage memo.lineage)

end View

end ViewCompiler
