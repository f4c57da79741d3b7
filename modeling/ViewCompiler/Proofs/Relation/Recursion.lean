import ViewCompiler.Relation.Compile
import Mathlib.Data.List.Nodup
import Mathlib.Logic.Relation

/-!
# Compilation by plain recursion

`View.relationFrom` goes into the inputs of a node, and a node that it meets again on its own path
is the cycle.  What a node needs in order to succeed does not depend on the path:

* `Recipe.asked` lists the inputs that a recipe comes to ask for.
* `View.Needs` relates a node to the inputs that its compilation asks for.
* `View.relationFrom_nil`: a node that succeeds on some path succeeds on every shorter one.
* `View.not_needs_self`: **a node that succeeds lies on no cycle.**
* `View.relationFrom_of_needs`: a node that succeeds does so on every path that leads to it.
-/

namespace ViewCompiler

namespace Recipe

/-- The inputs that a recipe asks for, up to the first one that fails. -/
def asked (relationOf : String → Except CompileError Relation) : Recipe → List String
  | .done _ => []
  | .ask input next =>
    input :: match relationOf input with
      | .error _ => []
      | .ok relation => (next relation).asked relationOf

variable {f g : String → Except CompileError Relation}

/-- A recipe sees of its inputs only what it asks for. -/
theorem eval_congr {recipe : Recipe} (h : ∀ input ∈ recipe.asked f, g input = f input) :
    recipe.eval g = recipe.eval f := by
  induction recipe with
  | done result => rfl
  | ask input next ih =>
    have hin : g input = f input := h input (by simp [asked])
    cases hf : f input with
    | error error => simp only [eval, hin, hf]
    | ok relation =>
      simp only [eval, hin, hf]
      refine ih relation fun other hother => h other ?_
      simp only [asked, hf]
      exact List.mem_cons_of_mem _ hother

theorem ok_of_mem_asked {recipe : Recipe} {result : Relation} (h : recipe.eval f = .ok result)
    {input : String} (hin : input ∈ recipe.asked f) : ∃ relation, f input = .ok relation := by
  induction recipe with
  | done => simp [asked] at hin
  | ask first next ih =>
    cases hf : f first with
    | error error => simp [eval, hf] at h
    | ok relation =>
      simp only [eval, hf] at h
      simp only [asked, hf, List.mem_cons] at hin
      rcases hin with rfl | hin
      · exact ⟨relation, hf⟩
      · exact ih relation h hin

/-- More answers do not change a recipe that succeeds. -/
theorem eval_mono {recipe : Recipe} {result : Relation}
    (hfg : ∀ input relation, f input = .ok relation → g input = .ok relation)
    (h : recipe.eval f = .ok result) : recipe.eval g = .ok result := by
  rw [← h]
  refine eval_congr fun input hin => ?_
  obtain ⟨relation, hf⟩ := ok_of_mem_asked h hin
  rw [hf, hfg input relation hf]

theorem asked_mono {recipe : Recipe} {result : Relation}
    (hfg : ∀ input relation, f input = .ok relation → g input = .ok relation)
    (h : recipe.eval f = .ok result) : recipe.asked g = recipe.asked f := by
  induction recipe with
  | done => rfl
  | ask first next ih =>
    cases hf : f first with
    | error error => simp [eval, hf] at h
    | ok relation =>
      simp only [eval, hf] at h
      simp only [asked, hf, hfg first relation hf, ih relation h]

end Recipe

namespace View

variable {view : View} {path : List String} {id input : String} {relation : Relation}

theorem lastNode?_eq_some_iff {node : Node} (hids : (view.scope.map Node.id).Nodup) :
    view.lastNode? id = some node ↔ node ∈ view.scope ∧ node.id = id := by
  constructor
  · intro h
    exact ⟨by simpa using List.mem_of_find?_eq_some h, by simpa using List.find?_some h⟩
  · rintro ⟨hnode, rfl⟩
    cases hfind : view.lastNode? node.id with
    | none => simpa using List.find?_eq_none.1 hfind node (List.mem_reverse.2 hnode)
    | some found =>
      have hid : found.id = node.id := by simpa using List.find?_some hfind
      have hfound : found ∈ view.scope := by simpa using List.mem_of_find?_eq_some hfind
      rw [List.inj_on_of_nodup_map hids hfound hnode hid]

theorem relationFrom_of_none (h : view.lastNode? id = none) (path : List String) :
    view.relationFrom path id = .error (.unknownNode id) := by
  rw [relationFrom]
  split <;> simp_all

theorem relationFrom_of_mem {node : Node} (h : view.lastNode? id = some node) (hid : id ∈ path) :
    view.relationFrom path id = .error (.node id .cycle) := by
  rw [relationFrom]
  split <;> simp_all

theorem relationFrom_of_notMem {node : Node} (h : view.lastNode? id = some node)
    (hid : id ∉ path) :
    view.relationFrom path id = node.recipe.eval (view.relationFrom (id :: path)) := by
  rw [relationFrom]
  split <;> simp_all

theorem relationFrom_eq_ok (h : view.relationFrom path id = .ok relation) :
    id ∉ path ∧ ∃ node, view.lastNode? id = some node ∧
      node.recipe.eval (view.relationFrom (id :: path)) = .ok relation := by
  cases hnode : view.lastNode? id with
  | none => simp [relationFrom_of_none hnode] at h
  | some node =>
    by_cases hid : id ∈ path
    · simp [relationFrom_of_mem hnode hid] at h
    · exact ⟨hid, node, rfl, by rwa [relationFrom_of_notMem hnode hid] at h⟩

/-- A node that succeeds on a path succeeds on every path with fewer nodes.  The induction is on
the nodes that are still ahead of the longer path. -/
theorem relationFrom_mono {path shorter : List String} {id : String} {relation : Relation}
    (hsub : ∀ node ∈ shorter, node ∈ path) (h : view.relationFrom path id = .ok relation) :
    view.relationFrom shorter id = .ok relation := by
  obtain ⟨hid, node, hnode, heval⟩ := relationFrom_eq_ok h
  -- `hdec` is what the recursion below ends by
  have hdec := length_idsAhead_lt (mem_ids_of_lastNode? hnode) hid
  rw [relationFrom_of_notMem hnode fun hmem => hid (hsub id hmem)]
  refine Recipe.eval_mono (fun input answer hanswer => ?_) heval
  refine relationFrom_mono (fun other hother => ?_) hanswer
  rcases List.mem_cons.1 hother with rfl | hother
  · exact List.mem_cons_self
  · exact List.mem_cons_of_mem _ (hsub other hother)
termination_by (view.idsAhead path).length

theorem relationFrom_nil (h : view.relationFrom path id = .ok relation) :
    view.relationOf id = .ok relation :=
  relationFrom_mono (by simp) h

/-! ### What a node needs -/

variable (view) in
/-- The compilation of a node asks for an input. -/
def Needs (id input : String) : Prop :=
  ∃ node, view.lastNode? id = some node ∧ input ∈ node.recipe.asked view.relationOf

/-- Whatever a node needs that succeeds on a path succeeds beyond the node. -/
theorem ok_of_needs (h : view.relationFrom path id = .ok relation) (hneeds : view.Needs id input) :
    ∃ answer, view.relationFrom (id :: path) input = .ok answer := by
  obtain ⟨-, node, hnode, heval⟩ := relationFrom_eq_ok h
  obtain ⟨node', hnode', hin⟩ := hneeds
  obtain rfl : node = node' := by rwa [hnode, Option.some.injEq] at hnode'
  rw [Recipe.asked_mono (fun _ _ => relationFrom_nil) heval] at hin
  exact Recipe.ok_of_mem_asked heval hin

theorem ok_of_transGen_needs (h : view.relationFrom path id = .ok relation)
    (hneeds : Relation.TransGen view.Needs id input) :
    ∃ answer, view.relationFrom (id :: path) input = .ok answer := by
  induction hneeds with
  | single hstep => exact ok_of_needs h hstep
  | @tail middle last _ hstep ih =>
    obtain ⟨_, hmiddle⟩ := ih
    obtain ⟨answer, hanswer⟩ := ok_of_needs hmiddle hstep
    exact ⟨answer, relationFrom_mono (fun _ => List.mem_cons_of_mem _) hanswer⟩

/-- **A node that succeeds lies on no cycle.** -/
theorem not_needs_self (h : view.relationFrom path id = .ok relation) :
    ¬ Relation.TransGen view.Needs id id := by
  intro hcycle
  obtain ⟨_, hanswer⟩ := ok_of_transGen_needs h hcycle
  exact (relationFrom_eq_ok hanswer).1 List.mem_cons_self

/-- **A node that succeeds does so on every path that leads to it.**  Such a path holds no node
that the node itself needs, or there would be a cycle through the node. -/
theorem relationFrom_of_needs {path : List String} {id : String} {relation : Relation}
    (h : view.relationOf id = .ok relation)
    (hpath : ∀ reader ∈ path, Relation.TransGen view.Needs reader id) :
    view.relationFrom path id = .ok relation := by
  obtain ⟨-, node, hnode, heval⟩ := relationFrom_eq_ok h
  have hid : id ∉ path := fun hmem => not_needs_self h (hpath id hmem)
  have hdec := length_idsAhead_lt (mem_ids_of_lastNode? hnode) hid
  have hwhole : node.recipe.eval view.relationOf = .ok relation :=
    Recipe.eval_mono (fun _ _ => relationFrom_nil) heval
  rw [relationFrom_of_notMem hnode hid, ← hwhole]
  refine Recipe.eval_congr fun input hin => ?_
  obtain ⟨answer, hanswer⟩ := Recipe.ok_of_mem_asked hwhole hin
  have hneeds : view.Needs id input := ⟨node, hnode, hin⟩
  rw [hanswer]
  -- the longer path still consists of nodes that need the input
  refine relationFrom_of_needs hanswer fun reader hreader => ?_
  rcases List.mem_cons.1 hreader with rfl | hreader
  · exact .single hneeds
  · exact (hpath reader hreader).tail hneeds
termination_by (view.idsAhead path).length

end View

end ViewCompiler
