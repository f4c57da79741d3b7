import ViewCompiler.Proofs.Scope.Passes

/-!
# The error of a scope with a cycle

* `Scope.order_eq_of_orderOf`, `Scope.order_eq_of_outputCount`: the two ways in which a scope is
  refused whose ids, numbers of inputs and inputs are as they should be.
* `Scope.exists_order_error`: **the node that the error names lies on a cycle**; it is the one at
  which the two passes over the graph end.
-/

namespace ViewCompiler

namespace Scope

variable {scope : List Node}

/-- Where no order is found, the error names the node at that position. -/
theorem order_eq_of_orderOf (hwell : WellFormed scope) {i : Nat} (h : orderOf scope = .error i) :
    order scope = .error (.node (idAt scope i) .cycle) := by
  rw [order, checkNodes_eq_ok_iff.2 hwell, h]
  rfl

/-- The number of outputs is checked before the inputs; its error names no node. -/
theorem order_eq_of_outputCount (hnamed : ∀ node ∈ scope, node.id ≠ "")
    (hids : (scope.map Node.id).Nodup) (hcount : outputCount scope ≠ 1) :
    order scope = .error (.outputCount (outputCount scope)) := by
  have hchecked : checkIds [] scope = .ok () :=
    checkIds_eq_ok_iff.2 ⟨hnamed, hids, fun _ _ => List.not_mem_nil⟩
  have hrefused : require (decide (outputCount scope = 1)) (.outputCount (outputCount scope)) =
      .error (.outputCount (outputCount scope)) := by
    rw [require, decide_eq_false hcount]
    rfl
  rw [order, checkNodes, hchecked, hrefused]
  rfl

theorem mem_ids_of_reads {id input : String} (h : Relation.TransGen (Reads scope) id input) :
    id ∈ scope.map Node.id := by
  obtain ⟨next, ⟨node, hnode, rfl, -⟩, -⟩ := Relation.TransGen.head'_iff.1 h
  exact List.mem_map_of_mem hnode

/-- **The error of a scope with a cycle blames the cycle.** If the ids of a scope, the numbers of
inputs and the inputs are as they should be, but there is a cycle, then there is no order, and the
node that the error names is reached from itself through inputs. If the scope has one output, as it
should, the error names the node at which the two passes over the graph end. -/
theorem exists_order_error (scope : List Node) (hnamed : ∀ node ∈ scope, node.id ≠ "")
    (hids : (scope.map Node.id).Nodup)
    (hcounts : ∀ node ∈ scope, node.kind.Takes node.inputs.length)
    (hinputs : ∀ node ∈ scope, node.inputs.Nodup ∧
      ∀ input ∈ node.inputs, input ∈ scope.map Node.id)
    (hcycle : ∃ id, Relation.TransGen (Reads scope) id id) :
    ∃ defect, order scope = .error defect ∧
      (∀ id, defect.node? = some id →
        id ∈ scope.map Node.id ∧ Relation.TransGen (Reads scope) id id) ∧
      ((scope.filter fun node => node.kind = .output).length = 1 →
        ∃ i, TwoPasses (edges scope) scope.length (.error i) ∧
          defect = .node (idAt scope i) .cycle) := by
  by_cases hcount : outputCount scope = 1
  · have hwell : WellFormed scope :=
      ⟨hnamed, hids, hcount, fun node hnode => takesInputs_iff.2 (hcounts node hnode),
        fun node hnode => (hinputs node hnode).1, fun node hnode => (hinputs node hnode).2⟩
    cases hof : orderOf scope with
    | ok positions =>
      have horder : order scope = .ok positions := by
        rw [order, checkNodes_eq_ok_iff.2 hwell, hof]
        rfl
      obtain ⟨id, hid⟩ := hcycle
      exact absurd hid (acyclic_of_order horder id)
    | error i =>
      have hback := reads_of_leads (leads_self_of_orderOf hids hof)
      have hends := (twoPasses_iff hids hwell.distinct).2 hof
      refine ⟨_, order_eq_of_orderOf hwell hof, fun id hid => ?_, fun _ => ⟨i, hends, rfl⟩⟩
      obtain rfl : idAt scope i = id := Option.some.inj hid
      exact ⟨mem_ids_of_reads hback, hback⟩
  · refine ⟨_, order_eq_of_outputCount hnamed hids hcount, fun id hid => ?_, fun hone => ?_⟩
    · cases hid
    · rw [outputCount, List.countP_eq_length_filter] at hcount
      exact absurd hone hcount

/-- Two joins that read each other; the result reads one of them, and both read a source. -/
def crossed : List Node :=
  [{ id := "result", inputs := ["left"], config := .output },
    { id := "left", inputs := ["source", "right"], config := .join .inner [] none {} },
    { id := "right", inputs := ["source", "left"], config := .join .inner [] none {} },
    { id := "source", config := .view "a" none {} none }]

theorem exists_order_error_crossed :
    order crossed = .error (.node "right" .cycle) ∧
      Relation.TransGen (Reads crossed) "right" "right" := by
  have hleft : Reads crossed "left" "right" :=
    ⟨_, List.mem_of_getElem? (i := 1) rfl, rfl, by decide⟩
  have hright : Reads crossed "right" "left" :=
    ⟨_, List.mem_of_getElem? (i := 2) rfl, rfl, by decide⟩
  obtain ⟨defect, hdefect, hnode, -⟩ := exists_order_error crossed (by decide) (by decide)
    (by simp [crossed, Node.kind, NodeConfig.kind, NodeKind.Takes]) (by decide)
    ⟨"left", .tail (.single hleft) hright⟩
  have horder : order crossed = .error (.node "right" .cycle) := by rfl
  obtain rfl := Except.error.inj (hdefect.symm.trans horder)
  exact ⟨horder, (hnode "right" rfl).2⟩

end Scope

end ViewCompiler
