import ViewCompiler.Proofs.Scope.Walk

/-!
# Scopes without cycles have an order

* `Scope.Reads`, `Scope.Acyclic`: the graph of a scope, on the ids of its nodes.
* `Scope.leads_self_of_orderOf`: where no order is found, the position in the error lies on a cycle.
* `Scope.exists_order_iff`: **exactly the well-formed scopes without cycles have an order**, and in
  it every node comes after its inputs.
-/

namespace ViewCompiler

namespace Scope

/-- The node with an id has an input. -/
def Reads (scope : List Node) (id input : String) : Prop :=
  ∃ node ∈ scope, node.id = id ∧ input ∈ node.inputs

/-- No node is an input of itself, of one of its inputs, of an input of these and so on. -/
def Acyclic (scope : List Node) : Prop := ∀ id, ¬Relation.TransGen (Reads scope) id id

end Scope

/-- The numbers of inputs that a node of a kind may have. -/
def NodeKind.Takes : NodeKind → Nat → Prop
  | .view, count => count = 0
  | .join, count => count = 2
  | .union, count => 2 ≤ count
  | .sql, count => 1 ≤ count
  | .output, count => count = 1

/-! ### The order of a scope -/

namespace Scope

variable {scope : List Node}

theorem takesInputs_iff {kind : NodeKind} {count : Nat} :
    takesInputs kind count = true ↔ kind.Takes count := by
  cases kind <;> simp [takesInputs, NodeKind.Takes]

theorem exists_of_mem_readersOf {i j : Nat} (h : j ∈ readersOf scope i) :
    ∃ source node, scope[i]? = some source ∧ scope[j]? = some node ∧ source.id ∈ node.inputs := by
  rw [readersOf] at h
  cases hi : scope[i]? with
  | none => simp [hi] at h
  | some source =>
    simp only [hi, List.mem_filter] at h
    cases hj : scope[j]? with
    | none => simp [hj] at h
    | some node =>
      simp only [hj, List.contains_iff_mem] at h
      exact ⟨source, node, rfl, rfl, h.2⟩

theorem mem_readersOf_iff (hids : (scope.map Node.id).Nodup) {i j : Nat} :
    j ∈ readersOf scope i ↔ i ∈ inputsOf scope j := by
  constructor
  · intro h
    obtain ⟨source, node, hi, hj, hinput⟩ := exists_of_mem_readersOf h
    simp only [inputsOf, hj]
    exact List.mem_filterMap.2 ⟨source.id, hinput, position?_id hids hi⟩
  · intro h
    rw [inputsOf] at h
    cases hj : scope[j]? with
    | none => simp [hj] at h
    | some node =>
      simp only [hj] at h
      obtain ⟨input, hinput, hposition⟩ := List.mem_filterMap.1 h
      obtain ⟨source, hi, rfl⟩ := position?_eq_some hposition
      have hlt : j < scope.length := (List.getElem?_eq_some_iff.1 hj).1
      simp only [readersOf, hi, List.mem_filter, List.mem_range, hj, List.contains_iff_mem]
      exact ⟨hlt, hinput⟩

/-- The id at a position; positions beyond the scope have none. -/
def idAt (scope : List Node) (i : Nat) : String := (scope[i]?.map Node.id).getD ""

/-- A way through positions goes, backwards, through the ids of the inputs. -/
theorem reads_of_leads {i j : Nat}
    (h : Relation.TransGen (Walk.Leads (readersOf scope)) i j) :
    Relation.TransGen (Reads scope) (idAt scope j) (idAt scope i) := by
  refine Relation.transGen_swap.1 (h.lift (idAt scope) fun source reader hleads => ?_)
  obtain ⟨input, node, hsource, hreader, hinput⟩ := exists_of_mem_readersOf hleads
  refine ⟨node, List.mem_of_getElem? hreader, ?_, ?_⟩
  · simp [idAt, hreader]
  · simpa [idAt, hsource] using hinput

/-- An input that is out of place leads to its reader, and the reader leads back to it. -/
theorem leads_self_of_misplaced (hids : (scope.map Node.id).Nodup) {positions : List Nat}
    (hperm : positions.Perm (List.range scope.length))
    (hsettled : Walk.Settled (readersOf scope) positions) {j : Nat}
    (h : misplaced? (inputsOf scope) [] positions = some j) :
    Relation.TransGen (Walk.Leads (readersOf scope)) j j := by
  obtain ⟨pre, i, post, heq, hinput, hne, hpre, -⟩ := exists_of_misplaced?_eq_some h
  have hreader : i ∈ readersOf scope j := (mem_readersOf_iff hids).2 hinput
  obtain ⟨source, -, hj, -, -⟩ := exists_of_mem_readersOf hreader
  have hlt : j < scope.length := (List.getElem?_eq_some_iff.1 hj).1
  have hmem : j ∈ pre ++ i :: post := heq ▸ hperm.mem_iff.2 (List.mem_range.2 hlt)
  have hpost : j ∈ post :=
    List.mem_of_ne_of_mem hne ((List.mem_append.1 hmem).resolve_left hpre)
  obtain ⟨between, after, rfl⟩ := List.append_of_mem hpost
  rcases hsettled (pre ++ i :: between) j after (by simp [heq]) i hreader with hagain | hback
  · -- the reader would stand both before and behind its input
    have hnodup : positions.Nodup := hperm.nodup_iff.2 List.nodup_range
    rw [heq] at hnodup
    exact absurd (List.mem_append_right between (List.mem_cons_of_mem _ hagain))
      (List.nodup_cons.1 (List.nodup_append.1 hnodup).2.1).1
  · exact .head hreader hback

/-- **Where no order is found, the position in the error lies on a cycle.** -/
theorem leads_self_of_orderOf (hids : (scope.map Node.id).Nodup) {i : Nat}
    (h : orderOf scope = .error i) :
    Relation.TransGen (Walk.Leads (readersOf scope)) i i := by
  have hreaders : ∀ i, ∀ j ∈ readersOf scope i, j < scope.length :=
    fun i j hj => lt_of_mem_readersOf hj
  rcases Result.bind_eq_error.1 h with hvisits | ⟨walk, hwalk, hplaces⟩
  · obtain ⟨between, k, -, hvisit⟩ := Result.exists_of_foldlM_eq_error hvisits
    exact .single (Walk.reads_itself hvisit)
  · have hfuel := Nat.le_succ scope.length
    cases hmisplaced : misplaced? (inputsOf scope) [] walk.left with
    | none => simp [hmisplaced] at hplaces
    | some j =>
      rw [hmisplaced] at hplaces
      obtain rfl : j = i := Except.error.inj hplaces
      exact leads_self_of_misplaced hids (Walk.perm_of_visitAll hreaders hfuel hwalk).1
        (Walk.visitAll_settled hreaders hfuel hwalk) hmisplaced

theorem exists_order (hwell : WellFormed scope) (hacyclic : Acyclic scope) :
    ∃ positions, order scope = .ok positions := by
  cases hof : orderOf scope with
  | error i =>
    exact absurd (reads_of_leads (leads_self_of_orderOf hwell.ids hof)) (hacyclic _)
  | ok positions =>
    refine ⟨positions, Result.bind_unit_eq_ok.2 ⟨checkNodes_eq_ok_iff.2 hwell, ?_⟩⟩
    rw [hof]

theorem acyclic_of_order {positions : List Nat} (h : order scope = .ok positions) :
    Acyclic scope := by
  obtain ⟨rank, hrank⟩ := exists_rank h
  intro id hcycle
  have hless : ∀ {id input : String}, Relation.TransGen (Reads scope) id input →
      rank input < rank id := by
    intro id input hreads
    induction hreads with
    | single hstep =>
      obtain ⟨node, hnode, rfl, hinput⟩ := hstep
      exact hrank node hnode _ hinput
    | tail _ hstep ih =>
      obtain ⟨node, hnode, rfl, hinput⟩ := hstep
      exact Nat.lt_trans (hrank node hnode _ hinput) ih
  exact Nat.lt_irrefl _ (hless hcycle)

/-- **A scope has an order exactly if its nodes are named apart, one of them is the output, every
node has as many inputs as its kind takes, these are distinct nodes of the scope, and there is no
cycle.** The order holds every position once, and every node after all its inputs. -/
theorem exists_order_iff (scope : List Node) :
    ((∃ positions, order scope = .ok positions) ↔
      (∀ node ∈ scope, node.id ≠ "") ∧ (scope.map Node.id).Nodup ∧
        (scope.filter fun node => node.kind = .output).length = 1 ∧
        (∀ node ∈ scope, node.kind.Takes node.inputs.length) ∧
        (∀ node ∈ scope, node.inputs.Nodup ∧ ∀ input ∈ node.inputs, input ∈ scope.map Node.id) ∧
        Acyclic scope) ∧
    ∀ positions, order scope = .ok positions →
      positions.Perm (List.range scope.length) ∧
        ∀ pre i post, positions = pre ++ i :: post → ∀ node, scope[i]? = some node →
          ∀ input ∈ node.inputs, ∃ j ∈ pre, ∃ source, scope[j]? = some source ∧
            source.id = input := by
  refine ⟨⟨?_, ?_⟩, fun positions horder => ?_⟩
  · rintro ⟨positions, horder⟩
    obtain ⟨hwell, -, -⟩ := order_eq_ok horder
    exact ⟨hwell.named, hwell.ids, by rw [← List.countP_eq_length_filter]; exact hwell.output,
      fun node hnode => takesInputs_iff.1 (hwell.counts node hnode),
      fun node hnode => ⟨hwell.distinct node hnode, hwell.known node hnode⟩,
      acyclic_of_order horder⟩
  · rintro ⟨hnamed, hids, houtput, hcounts, hinputs, hacyclic⟩
    refine exists_order ⟨hnamed, hids, ?_, fun node hnode => takesInputs_iff.2 (hcounts node hnode),
      fun node hnode => (hinputs node hnode).1, fun node hnode => (hinputs node hnode).2⟩ hacyclic
    rw [outputCount, List.countP_eq_length_filter]
    exact houtput
  · obtain ⟨hwell, hperm, hplaced⟩ := order_eq_ok horder
    refine ⟨hperm, fun pre i post heq node hnode input hinput => ?_⟩
    obtain ⟨j, source, hj, hid, hin⟩ := hwell.exists_input hnode hinput
    exact ⟨j, hplaced pre i post heq j hin, source, hj, hid⟩

/-- Two sources, one of which is read twice, in the reverse order of their use. -/
def shared : List Node :=
  [{ id := "result", inputs := ["all"], config := .output },
    { id := "all", inputs := ["both", "first"], config := .union .all [] none },
    { id := "both", inputs := ["first", "second"], config := .union .all [] none },
    { id := "first", config := .view "a" none {} none },
    { id := "second", config := .view "b" none {} none }]

theorem exists_order_iff_shared :
    Acyclic shared ∧ ∃ positions, order shared = .ok positions ∧
      positions.Perm (List.range shared.length) ∧
        ∀ pre i post, positions = pre ++ i :: post → ∀ node, shared[i]? = some node →
          ∀ input ∈ node.inputs, ∃ j ∈ pre, ∃ source, shared[j]? = some source ∧
            source.id = input := by
  have horder : order shared = .ok [4, 3, 2, 1, 0] := by rfl
  obtain ⟨hiff, hplaced⟩ := exists_order_iff shared
  obtain ⟨-, -, -, -, -, hacyclic⟩ := hiff.1 ⟨_, horder⟩
  exact ⟨hacyclic, _, horder, hplaced _ horder⟩

end Scope

end ViewCompiler
