import ViewCompiler.Proofs.KeyMap
import ViewCompiler.Proofs.Relation.Recursion

/-!
# Compilation with a memo

A `Memo` keeps the relations of the nodes that have been compiled.  Whatever calls it has served,
it answers the next one as a fresh memo does:

* `Memo.Agrees` is the invariant of a compilation that has come along a path: the memo holds only
  relations that plain recursion gives as well, and the nodes under way are those of the path.
* `Memo.relationOfWithin_eq`: such a compilation gives what plain recursion gives on that path.
* `Memo.Call`, `Memo.after`: the calls that a memo serves and the memo that they leave.
* `Memo.answer_after`: **the memo is invisible** in every sequence of calls.
-/

namespace ViewCompiler

namespace Memo

variable {view : View} {path : List String} {memo : Memo}

/-- The memo agrees with plain recursion, and the nodes of the path are under way. -/
structure Agrees (view : View) (path : List String) (memo : Memo) : Prop where
  /-- What is kept is what plain recursion gives. -/
  sound : ∀ id relation, memo.relations.get? id = some relation →
    view.relationOf id = .ok relation
  visiting : memo.visiting = path

theorem agrees_empty (view : View) : Agrees view [] {} where
  sound := by simp
  visiting := rfl

theorem Agrees.enter (h : Agrees view path memo) (id : String) :
    Agrees view (id :: path) { memo with visiting := id :: memo.visiting } where
  sound := h.sound
  visiting := by simp only [h.visiting]

theorem Agrees.leave {id : String} (h : Agrees view (id :: path) memo) (hid : id ∉ path) :
    Agrees view path { memo with visiting := memo.visiting.filter (· ≠ id) } where
  sound := h.sound
  visiting := by
    have hpath : path.filter (· ≠ id) = path :=
      List.filter_eq_self.2 fun other hother => by
        simpa using fun heq : other = id => hid (heq ▸ hother)
    simpa [h.visiting] using hpath

theorem Agrees.keep {id : String} {relation : Relation} (h : Agrees view path memo)
    (hid : view.relationOf id = .ok relation) :
    Agrees view path { memo with relations := memo.relations.insert id relation } where
  sound := fun other answer hget => by
    rw [KeyMap.get?_insert] at hget
    split at hget
    · next heq =>
      subst heq
      rw [hid, Option.some.inj hget]
    · exact h.sound other answer hget
  visiting := h.visiting

/-! ### One compilation -/

/-- The answer of a compilation with a memo is that of plain recursion on the path, and the memo
agrees with it afterwards.  No depth from the number of nodes ahead on makes a difference. -/
def Answers (view : View) (path : List String) (id : String) (memo : Memo) : Prop :=
  ∃ after, Agrees view path after ∧ ∀ fuel, (view.idsAhead path).length ≤ fuel →
    relationOfWithin view fuel id memo = (view.relationFrom path id, after)

/-- A recipe that is followed with a memo comes to what it comes to by plain recursion, if its
requests do. -/
theorem run_eq_eval {recipe : Recipe}
    (hask : ∀ input memo, input ∈ recipe.asked view.relationOf → Agrees view path memo →
      Answers view path input memo)
    (hmemo : Agrees view path memo) :
    ∃ after, Agrees view path after ∧ ∀ fuel, (view.idsAhead path).length ≤ fuel →
      recipe.run (relationOfWithin view fuel) memo =
        (recipe.eval (view.relationFrom path), after) := by
  induction recipe generalizing memo with
  | done result => exact ⟨memo, hmemo, fun _ _ => rfl⟩
  | ask input next ih =>
    obtain ⟨between, hbetween, hrun⟩ := hask input memo (by simp [Recipe.asked]) hmemo
    cases hfrom : view.relationFrom path input with
    | error error =>
      refine ⟨between, hbetween, fun fuel hfuel => ?_⟩
      simp only [Recipe.run, Recipe.eval, hrun fuel hfuel, hfrom]
    | ok relation =>
      have hin : view.relationOf input = .ok relation := View.relationFrom_nil hfrom
      obtain ⟨after, hafter, hnext⟩ := ih relation
        (fun other memo hother => hask other memo (by simp [Recipe.asked, hin, hother])) hbetween
      refine ⟨after, hafter, fun fuel hfuel => ?_⟩
      simp only [Recipe.run, Recipe.eval, hrun fuel hfuel, hfrom, hnext fuel hfuel]

/-- **A compilation with a memo gives what plain recursion gives**, if every node under way needs
the node that is compiled.  The induction is on the nodes that are still ahead of the path. -/
theorem relationOfWithin_eq {path : List String} {id : String} {memo : Memo}
    (hmemo : Agrees view path memo)
    (hpath : ∀ reader ∈ path, Relation.TransGen view.Needs reader id) :
    Answers view path id memo := by
  cases hget : memo.relations.get? id with
  | some relation =>
    refine ⟨memo, hmemo, fun fuel _ => ?_⟩
    rw [relationOfWithin, hget, View.relationFrom_of_needs (hmemo.sound id relation hget) hpath]
  | none =>
    cases hnode : view.lastNode? id with
    | none =>
      refine ⟨memo, hmemo, fun fuel _ => ?_⟩
      rw [relationOfWithin, hget, hnode, View.relationFrom_of_none hnode]
    | some node =>
      by_cases hid : id ∈ path
      · refine ⟨memo, hmemo, fun fuel _ => ?_⟩
        rw [relationOfWithin, hget, hnode, View.relationFrom_of_mem hnode hid, hmemo.visiting]
        simp only [List.contains_iff_mem.2 hid, ↓reduceIte]
      · have hdec := View.length_idsAhead_lt (View.mem_ids_of_lastNode? hnode) hid
        -- the requests of the node come from one node further on
        have hask : ∀ input memo, input ∈ node.recipe.asked view.relationOf →
            Agrees view (id :: path) memo → Answers view (id :: path) input memo := by
          intro input memo hin hmemo
          have hneeds : view.Needs id input := ⟨node, hnode, hin⟩
          refine relationOfWithin_eq hmemo fun reader hreader => ?_
          rcases List.mem_cons.1 hreader with rfl | hreader
          · exact .single hneeds
          · exact (hpath reader hreader).tail hneeds
        obtain ⟨after, hafter, hrun⟩ := run_eq_eval hask (hmemo.enter id)
        have hleft := hafter.leave hid
        have hfrom := View.relationFrom_of_notMem hnode hid
        have hstep : ∀ fuel, (view.idsAhead path).length ≤ fuel → ∃ rest,
            fuel = rest + 1 ∧ (view.idsAhead (id :: path)).length ≤ rest :=
          fun fuel hfuel => ⟨fuel - 1, by omega, by omega⟩
        -- the answer decides whether the memo keeps the relation when the node is left
        cases hresult : view.relationFrom path id with
        | error error =>
          refine ⟨_, hleft, fun fuel hfuel => ?_⟩
          obtain ⟨rest, rfl, hrest⟩ := hstep fuel hfuel
          rw [relationOfWithin, hget, hnode]
          simp only [hmemo.visiting] at hrun ⊢
          simp only [List.contains_iff_mem, hid, ↓reduceIte, hrun rest hrest, ← hfrom, hresult]
        | ok relation =>
          refine ⟨_, hleft.keep (View.relationFrom_nil hresult), fun fuel hfuel => ?_⟩
          obtain ⟨rest, rfl, hrest⟩ := hstep fuel hfuel
          rw [relationOfWithin, hget, hnode]
          simp only [hmemo.visiting] at hrun ⊢
          simp only [List.contains_iff_mem, hid, ↓reduceIte, hrun rest hrest, ← hfrom, hresult]
termination_by (view.idsAhead path).length

/-! ### Sequences of calls -/

/-- A request for a statement. -/
inductive Call where
  /-- The statement of the node with an id. -/
  | node (id : String)
  /-- The statement of the view. -/
  | view
  deriving DecidableEq, Repr

/-- The answer to a call, and the memo after it. -/
def answer (view : View) : Call → Memo → Except CompileError String × Memo
  | .node id => nodeSql view id
  | .view => viewSql view

/-- The memo that a sequence of calls leaves, whether they succeed or fail. -/
def after (view : View) (history : List Call) : Memo :=
  history.foldl (fun memo call => (answer view call memo).2) {}

end Memo

/-- The answer to a call by plain recursion. -/
def View.plainAnswer (view : View) : Memo.Call → Except CompileError String
  | .node id => (view.relationOf id).map Relation.sql
  | .view =>
    if view.isAtomic then view.tableSql
    else match view.outputNode? with
      | none => .error .noOutputNode
      | some output => (view.relationOf output.id).map Relation.sql

namespace Memo

variable {view : View} {memo : Memo}

theorem length_idsAhead_nil (view : View) : (view.idsAhead []).length = view.scope.length := by
  simp [View.idsAhead]

theorem relationOf_eq (hmemo : Agrees view [] memo) (id : String) :
    ∃ after, Agrees view [] after ∧ relationOf view id memo = (view.relationOf id, after) ∧
      ∀ depth, view.scope.length ≤ depth →
        relationOfWithin view depth id memo = (view.relationOf id, after) := by
  have hpath : ∀ reader ∈ [], Relation.TransGen view.Needs reader id := by simp
  obtain ⟨after, hafter, hfuel⟩ := relationOfWithin_eq hmemo hpath
  rw [length_idsAhead_nil] at hfuel
  exact ⟨after, hafter, hfuel _ (Nat.le_succ _), hfuel⟩

theorem nodeSql_eq (hmemo : Agrees view [] memo) (id : String) :
    (nodeSql view id memo).1 = (view.relationOf id).map Relation.sql ∧
      Agrees view [] (nodeSql view id memo).2 := by
  obtain ⟨after, hafter, heq, -⟩ := relationOf_eq hmemo id
  rw [nodeSql, heq]
  exact ⟨rfl, hafter⟩

/-- One call: the answer is the plain one, and the memo still agrees with plain recursion. -/
theorem answer_eq (hmemo : Agrees view [] memo) (call : Call) :
    (answer view call memo).1 = view.plainAnswer call ∧
      Agrees view [] (answer view call memo).2 := by
  cases call with
  | node id => exact nodeSql_eq hmemo id
  | view =>
    rw [answer, viewSql, View.plainAnswer]
    split
    · exact ⟨rfl, hmemo⟩
    · cases view.outputNode? with
      | none => exact ⟨rfl, hmemo⟩
      | some output => exact nodeSql_eq hmemo output.id

/-- All calls: whatever they were, the memo agrees with plain recursion. -/
theorem agrees_after (view : View) (history : List Call) : Agrees view [] (after view history) := by
  -- the start is general: the calls that come later find a memo that others have left
  have hfold : ∀ (calls : List Call) (memo : Memo), Agrees view [] memo →
      Agrees view [] (calls.foldl (fun memo call => (answer view call memo).2) memo) := by
    intro calls
    induction calls with
    | nil => exact fun _ hmemo => hmemo
    | cons call rest ih => exact fun memo hmemo => ih _ (answer_eq hmemo call).2
  exact hfold history {} (agrees_empty view)

/-- **The memo is invisible.**  After every sequence of calls the next one is answered as by a
fresh memo, which is the answer of plain recursion; no node stays under way; and the compilation
ends by itself, since from the number of nodes on its depth makes no difference. -/
theorem answer_after (view : View) (history : List Call) (call : Call) :
    (answer view call (after view history)).1 = (answer view call {}).1 ∧
      (answer view call {}).1 = view.plainAnswer call ∧
      (answer view call (after view history)).2.visiting = [] ∧
      ∀ depth, view.scope.length ≤ depth → ∀ id,
        relationOfWithin view depth id (after view history) =
          relationOf view id (after view history) := by
  have hfresh := answer_eq (agrees_empty view) call
  have hmemo := agrees_after view history
  obtain ⟨hanswer, hagrees⟩ := answer_eq hmemo call
  refine ⟨hanswer.trans hfresh.1.symm, hfresh.1, hagrees.visiting, fun depth hdepth id => ?_⟩
  obtain ⟨_, -, heq, hfuel⟩ := relationOf_eq hmemo id
  rw [heq, hfuel depth hdepth]

end Memo

end ViewCompiler
