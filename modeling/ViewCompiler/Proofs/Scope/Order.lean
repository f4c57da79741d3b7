import ViewCompiler.Proofs.Result
import ViewCompiler.Scope.Order
import Mathlib.Data.List.Nodup

/-!
# The order of a scope is one

* `Scope.WellFormed`: the ids, kinds and inputs of the nodes are as they should be;
  `Scope.checkNodes_eq_ok_iff` says that the check accepts exactly these scopes.
* `Walk.Grows`, `Walk.Sound`: what a depth-first walk keeps; it leaves every node that it comes to.
* `Scope.order_eq_ok`: **the order holds every position once, and every node after its inputs.**
* `Scope.exists_rank`: the inputs of a node have smaller ranks than the node.
-/

namespace ViewCompiler

namespace Scope

/-! ### The nodes one by one -/

theorem require_eq_ok {condition : Bool} {defect : ViewDefect} :
    require condition defect = .ok () ↔ condition = true := by
  cases condition <;> simp [require]

/-- The ids, kinds and inputs of the nodes are as they should be. -/
structure WellFormed (scope : List Node) : Prop where
  named : ∀ node ∈ scope, node.id ≠ ""
  ids : (scope.map Node.id).Nodup
  output : outputCount scope = 1
  counts : ∀ node ∈ scope, takesInputs node.kind node.inputs.length = true
  distinct : ∀ node ∈ scope, node.inputs.Nodup
  known : ∀ node ∈ scope, ∀ input ∈ node.inputs, input ∈ scope.map Node.id

theorem WellFormed.eq_of_id_eq {scope : List Node} (hwell : WellFormed scope) {node other : Node}
    (hnode : node ∈ scope) (hother : other ∈ scope) (hid : node.id = other.id) : node = other :=
  List.inj_on_of_nodup_map hwell.ids hnode hother hid

theorem WellFormed.exists_output {view : View} (hwell : WellFormed view.scope) :
    ∃ output, view.outputNode? = some output := by
  have hcount : 0 < outputCount view.scope := by simp [hwell.output]
  obtain ⟨output, hmem, hkind⟩ := List.countP_pos_iff.1 hcount
  exact Option.isSome_iff_exists.1 (List.find?_isSome.2 ⟨output, hmem, hkind⟩)

theorem checkIds_eq_ok_iff {seen : List String} {scope : List Node} :
    checkIds seen scope = .ok () ↔ (∀ node ∈ scope, node.id ≠ "") ∧ (scope.map Node.id).Nodup ∧
      ∀ node ∈ scope, node.id ∉ seen := by
  induction scope generalizing seen with
  | nil => simp [checkIds]
  | cons node rest ih =>
    have hnew : (!seen.contains node.id) = true ↔ node.id ∉ seen := by simp
    simp only [checkIds, Result.bind_unit_eq_ok, require_eq_ok, ih, decide_eq_true_eq, hnew,
      List.forall_mem_cons, List.map_cons, List.nodup_cons]
    constructor
    · rintro ⟨hname, hnew, hnames, hids, hrest⟩
      refine ⟨⟨hname, hnames⟩, ⟨fun hmem => ?_, hids⟩, hnew, fun other hother hseen =>
        hrest other hother (List.mem_cons_of_mem _ hseen)⟩
      obtain ⟨other, hother, heq⟩ := List.mem_map.1 hmem
      exact hrest other hother (heq ▸ List.mem_cons_self)
    · rintro ⟨⟨hname, hnames⟩, ⟨hnodup, hids⟩, hnew, hrest⟩
      refine ⟨hname, hnew, hnames, hids, fun other hother hseen => ?_⟩
      rcases List.mem_cons.1 hseen with heq | hseen
      · exact hnodup (List.mem_map.2 ⟨other, hother, heq⟩)
      · exact hrest other hother hseen

theorem checkInputs_eq_ok_iff {ids : List String} {id : String} {seen inputs : List String} :
    checkInputs ids id seen inputs = .ok () ↔
      inputs.Nodup ∧ (∀ input ∈ inputs, input ∈ ids) ∧ ∀ input ∈ inputs, input ∉ seen := by
  induction inputs generalizing seen with
  | nil => simp [checkInputs]
  | cons input rest ih =>
    have hnew : (!seen.contains input) = true ↔ input ∉ seen := by simp
    simp only [checkInputs, Result.bind_unit_eq_ok, require_eq_ok, ih, hnew, List.contains_iff_mem,
      List.forall_mem_cons, List.nodup_cons]
    constructor
    · rintro ⟨hnew, hknown, hnodup, hids, hrest⟩
      exact ⟨⟨fun hmem => hrest input hmem List.mem_cons_self, hnodup⟩, ⟨hknown, hids⟩, hnew,
        fun other hother hseen => hrest other hother (List.mem_cons_of_mem _ hseen)⟩
    · rintro ⟨⟨hnotMem, hnodup⟩, ⟨hknown, hids⟩, hnew, hrest⟩
      refine ⟨hnew, hknown, hnodup, hids, fun other hother hseen => ?_⟩
      rcases List.mem_cons.1 hseen with rfl | hseen
      · exact hnotMem hother
      · exact hrest other hother hseen

theorem checkNode_eq_ok_iff {ids : List String} {node : Node} :
    checkNode ids node = .ok () ↔ takesInputs node.kind node.inputs.length = true ∧
      node.inputs.Nodup ∧ ∀ input ∈ node.inputs, input ∈ ids := by
  simp only [checkNode, Result.bind_unit_eq_ok, require_eq_ok, checkInputs_eq_ok_iff,
    List.not_mem_nil, not_false_eq_true, implies_true, and_true]

theorem checkAllInputs_eq_ok_iff {ids : List String} {scope : List Node} :
    checkAllInputs ids scope = .ok () ↔ ∀ node ∈ scope, checkNode ids node = .ok () := by
  induction scope with
  | nil => simp [checkAllInputs]
  | cons node rest ih =>
    simp only [checkAllInputs, Result.bind_unit_eq_ok, List.forall_mem_cons, ih]

/-- **The check of the nodes accepts exactly the well-formed scopes.** -/
theorem checkNodes_eq_ok_iff {scope : List Node} :
    checkNodes scope = .ok () ↔ WellFormed scope := by
  simp only [checkNodes, Result.bind_unit_eq_ok, require_eq_ok, checkIds_eq_ok_iff,
    checkAllInputs_eq_ok_iff, checkNode_eq_ok_iff, decide_eq_true_eq]
  constructor
  · rintro ⟨⟨hnamed, hids, -⟩, houtput, hnodes⟩
    exact ⟨hnamed, hids, houtput, fun node hnode => (hnodes node hnode).1,
      fun node hnode => (hnodes node hnode).2.1, fun node hnode => (hnodes node hnode).2.2⟩
  · rintro ⟨hnamed, hids, houtput, hcounts, hdistinct, hknown⟩
    exact ⟨⟨hnamed, hids, by simp⟩, houtput,
      fun node hnode => ⟨hcounts node hnode, hdistinct node hnode, hknown node hnode⟩⟩

end Scope

/-! ### The depth-first walk -/

namespace Walk

variable {readers : Nat → List Nat} {n fuel i : Nat} {walk walk' walk'' : Walk}

/-! #### One step -/

theorem visit_of_found (h : i ∈ walk.found) : visit readers fuel walk i = .ok walk := by
  cases fuel with
  | zero => rfl
  | succ fuel => rw [visit, if_pos (List.contains_iff_mem.2 h)]

theorem visit_of_self (hnew : i ∉ walk.found) (hself : i ∈ readers i) :
    visit readers (fuel + 1) walk i = .error i := by
  rw [visit, if_neg (mt List.contains_iff_mem.1 hnew), if_pos (List.contains_iff_mem.2 hself)]

theorem visit_of_new (hnew : i ∉ walk.found) (hself : i ∉ readers i) :
    visit readers (fuel + 1) walk i = (do
      let last ← (readers i).foldlM (visit readers fuel) { walk with found := i :: walk.found }
      return { last with left := i :: last.left }) := by
  rw [visit, if_neg (mt List.contains_iff_mem.1 hnew), if_neg (mt List.contains_iff_mem.1 hself)]

/-- A walk that goes to a node has been there before, or goes on to its readers. -/
theorem visit_eq_ok (h : visit readers (fuel + 1) walk i = .ok walk') :
    (i ∈ walk.found ∧ walk' = walk) ∨ (i ∉ walk.found ∧ i ∉ readers i ∧ ∃ last,
      (readers i).foldlM (visit readers fuel) { walk with found := i :: walk.found } = .ok last ∧
        walk' = { last with left := i :: last.left }) := by
  by_cases hfound : i ∈ walk.found
  · rw [visit_of_found hfound] at h
    exact .inl ⟨hfound, (Except.ok.inj h).symm⟩
  by_cases hself : i ∈ readers i
  · rw [visit_of_self hfound hself] at h
    cases h
  · rw [visit_of_new hfound hself] at h
    obtain ⟨last, hlast, heq⟩ := Result.bind_eq_ok.1 h
    exact .inr ⟨hfound, hself, last, hlast, (Except.ok.inj heq).symm⟩

/-! #### What a walk keeps -/

/-- The later walk has come further: it has left every node that it came to in between. -/
structure Grows (walk walk' : Walk) : Prop where
  found : walk.found ⊆ walk'.found
  left : walk.left ⊆ walk'.left
  leaves : ∀ i ∈ walk'.found, i ∈ walk.found ∨ i ∈ walk'.left
  fresh : ∀ i ∈ walk'.left, i ∈ walk.left ∨ i ∉ walk.found

/-- The walk has left distinct nodes that do not read themselves. -/
structure Sound (readers : Nat → List Nat) (n : Nat) (walk : Walk) : Prop where
  nodup : walk.left.Nodup
  found : walk.left ⊆ walk.found
  bound : ∀ i ∈ walk.found, i < n
  notSelf : ∀ i ∈ walk.left, i ∉ readers i

theorem Sound.enter (h : Sound readers n walk) (hi : i < n) :
    Sound readers n { walk with found := i :: walk.found } :=
  ⟨h.nodup, fun _ hj => List.mem_cons_of_mem _ (h.found hj),
    List.forall_mem_cons.2 ⟨hi, h.bound⟩, h.notSelf⟩

/-- The number of nodes that the walk has not come to. -/
def unfound (n : Nat) (walk : Walk) : Nat := (List.range n).countP fun i => i ∉ walk.found

theorem Grows.refl (walk : Walk) : Grows walk walk :=
  ⟨List.Subset.refl _, List.Subset.refl _, fun _ => .inl, fun _ => .inl⟩

theorem Grows.trans (h : Grows walk walk') (h' : Grows walk' walk'') : Grows walk walk'' where
  found := List.Subset.trans h.found h'.found
  left := List.Subset.trans h.left h'.left
  leaves i hi := by
    rcases h'.leaves i hi with hfound | hleft
    · exact (h.leaves i hfound).imp_right fun hleft => h'.left hleft
    · exact .inr hleft
  fresh i hi := by
    rcases h'.fresh i hi with hleft | hfound
    · exact h.fresh i hleft
    · exact .inr fun hmem => hfound (h.found hmem)

theorem Grows.unfound_le (h : Grows walk walk') : unfound n walk' ≤ unfound n walk :=
  List.countP_mono_left fun i _ hi => by
    simp only [decide_eq_true_eq] at hi ⊢
    exact fun hmem => hi (h.found hmem)

theorem unfound_enter_lt (hi : i < n) (hnew : i ∉ walk.found) :
    unfound n { walk with found := i :: walk.found } < unfound n walk := by
  have hsub : (List.range n).filter (fun j => j ∉ i :: walk.found) =
      ((List.range n).filter fun j => j ∉ walk.found).filter (· ≠ i) := by
    rw [List.filter_filter]
    congr 1
    funext j
    simp
  rw [unfound, unfound, List.countP_eq_length_filter, List.countP_eq_length_filter, hsub,
    List.length_filter_lt_length_iff_exists]
  exact ⟨i, by simpa using ⟨hi, hnew⟩, by simp⟩

/-- A node that the walk came to first is not left while the walk goes on from it. -/
theorem Grows.notMem_left (h : Grows { walk with found := i :: walk.found } walk')
    (hsound : Sound readers n walk) (hnew : i ∉ walk.found) : i ∉ walk'.left := by
  intro hleft
  rcases h.fresh i hleft with hleft | hfresh
  · exact hnew (hsound.found hleft)
  · exact hfresh List.mem_cons_self

/-- A walk to several nodes does what a walk to each of them does. -/
theorem foldlM_visit
    (hvisit : ∀ walk i walk', visit readers fuel walk i = .ok walk' → Sound readers n walk →
      i < n → unfound n walk ≤ fuel → Grows walk walk' ∧ Sound readers n walk' ∧ i ∈ walk'.found)
    {nodes : List Nat} (h : nodes.foldlM (visit readers fuel) walk = .ok walk')
    (hsound : Sound readers n walk) (hnodes : ∀ i ∈ nodes, i < n) (hfuel : unfound n walk ≤ fuel) :
    Grows walk walk' ∧ Sound readers n walk' ∧ ∀ i ∈ nodes, i ∈ walk'.found := by
  induction nodes generalizing walk with
  | nil =>
    obtain rfl : walk = walk' := Except.ok.inj h
    exact ⟨.refl _, hsound, by simp⟩
  | cons i rest ih =>
    rw [List.forall_mem_cons] at hnodes
    obtain ⟨between, hfirst, hrest⟩ := Result.bind_eq_ok.1 h
    obtain ⟨hgrows, hbetween, hi⟩ := hvisit walk i between hfirst hsound hnodes.1 hfuel
    obtain ⟨hgrows', hsound', hall⟩ :=
      ih hrest hbetween hnodes.2 (Nat.le_trans hgrows.unfound_le hfuel)
    exact ⟨hgrows.trans hgrows', hsound', List.forall_mem_cons.2 ⟨hgrows'.found hi, hall⟩⟩

/-- **A walk comes to the node that it goes to** and leaves every node that it comes to. -/
theorem visit_spec (hreaders : ∀ i, ∀ j ∈ readers i, j < n) (fuel : Nat) (walk : Walk) (i : Nat)
    (walk' : Walk) (h : visit readers fuel walk i = .ok walk') (hsound : Sound readers n walk)
    (hi : i < n) (hfuel : unfound n walk ≤ fuel) :
    Grows walk walk' ∧ Sound readers n walk' ∧ i ∈ walk'.found := by
  induction fuel generalizing walk i walk' with
  | zero =>
    obtain rfl : walk = walk' := Except.ok.inj h
    refine ⟨.refl _, hsound, ?_⟩
    -- no node is left to come to
    have hnone : unfound n walk = 0 := Nat.le_zero.1 hfuel
    rw [unfound, List.countP_eq_zero] at hnone
    simpa using hnone i (List.mem_range.2 hi)
  | succ fuel ih =>
    obtain ⟨hfound, rfl⟩ | ⟨hfound, hself, last, hfold, rfl⟩ := visit_eq_ok h
    · exact ⟨.refl _, hsound, hfound⟩
    -- the walk has come to one more node, which pays for the step of fuel
    have hless := unfound_enter_lt hi hfound
    obtain ⟨hgrows, hsound', -⟩ :=
      foldlM_visit ih hfold (hsound.enter hi) (hreaders i) (by omega)
    have hmem : i ∈ last.found := hgrows.found List.mem_cons_self
    -- `i` is left last: all that was found in between has been left by then
    refine ⟨⟨fun j hj => hgrows.found (List.mem_cons_of_mem _ hj),
      fun j hj => List.mem_cons_of_mem _ (hgrows.left hj), fun j hj => ?_, fun j hj => ?_⟩,
      ⟨List.nodup_cons.2 ⟨hgrows.notMem_left hsound hfound, hsound'.nodup⟩,
        List.cons_subset.2 ⟨hmem, hsound'.found⟩, hsound'.bound,
        List.forall_mem_cons.2 ⟨hself, hsound'.notSelf⟩⟩, hmem⟩
    · rcases hgrows.leaves j hj with hj | hj
      · rcases List.mem_cons.1 hj with rfl | hj
        · exact .inr List.mem_cons_self
        · exact .inl hj
      · exact .inr (List.mem_cons_of_mem _ hj)
    · rcases List.mem_cons.1 hj with rfl | hj
      · exact .inr hfound
      · exact (hgrows.fresh j hj).imp_right fun hnew hj => hnew (List.mem_cons_of_mem _ hj)

/-- A walk to all nodes leaves each of them once. -/
theorem perm_of_visitAll (hreaders : ∀ i, ∀ j ∈ readers i, j < n)
    (hfuel : n ≤ fuel) (h : visitAll readers fuel (List.range n) = .ok walk) :
    walk.left.Perm (List.range n) ∧ ∀ i ∈ walk.left, i ∉ readers i := by
  have hempty : Sound readers n {} := ⟨List.nodup_nil, by simp, by simp, by simp⟩
  have hunfound : unfound n {} ≤ fuel := by simpa [unfound] using hfuel
  obtain ⟨hgrows, hsound, hall⟩ := foldlM_visit (visit_spec hreaders fuel) h hempty
    (fun i hi => List.mem_range.1 hi) hunfound
  refine ⟨(List.perm_ext_iff_of_nodup hsound.nodup List.nodup_range).2 fun i => ⟨fun hi => ?_,
    fun hi => ?_⟩, hsound.notSelf⟩
  · exact List.mem_range.2 (hsound.bound i (hsound.found hi))
  · exact (hgrows.leaves i (hall i hi)).resolve_left (by simp)

end Walk

namespace Scope

/-! ### The order -/

theorem misplaced?_eq_none_iff {inputs : Nat → List Nat} {before order : List Nat} :
    misplaced? inputs before order = none ↔ ∀ pre i post, order = pre ++ i :: post →
      ∀ j ∈ inputs i, j = i ∨ j ∈ pre ∨ j ∈ before := by
  induction order generalizing before with
  | nil => simp [misplaced?]
  | cons first rest ih =>
    rw [misplaced?]
    cases hfind : (inputs first).find? fun j => !(first :: before).contains j with
    | some j =>
      have hj : j ∉ first :: before := by simpa using List.find?_some hfind
      have hmem : j ∈ inputs first := List.mem_of_find?_eq_some hfind
      simp only [reduceCtorEq, false_iff, not_forall]
      refine ⟨[], first, rest, rfl, j, hmem, ?_⟩
      simpa using hj
    | none =>
      have hfirst : ∀ j ∈ inputs first, j ∈ first :: before := fun j hj => by
        simpa only [Bool.not_eq_true', Bool.not_eq_false, List.contains_iff_mem] using
          List.find?_eq_none.1 hfind j hj
      simp only [ih]
      constructor
      · intro h pre i post heq j hj
        rcases pre with - | ⟨head, pre⟩
        · obtain ⟨rfl, rfl⟩ := List.cons_eq_cons.1 heq
          exact (List.mem_cons.1 (hfirst j hj)).imp_right .inr
        · obtain ⟨rfl, rfl⟩ := List.cons_eq_cons.1 heq
          have hplace := h pre i post rfl j hj
          simp only [List.mem_cons] at hplace ⊢
          tauto
      · intro h pre i post heq j hj
        have hplace := h (first :: pre) i post (by rw [heq]; rfl) j hj
        simp only [List.mem_cons] at hplace ⊢
        tauto

theorem exists_of_misplaced?_eq_some {inputs : Nat → List Nat} {before order : List Nat} {j : Nat}
    (h : misplaced? inputs before order = some j) :
    ∃ pre i post, order = pre ++ i :: post ∧ j ∈ inputs i ∧ j ≠ i ∧ j ∉ pre ∧ j ∉ before := by
  induction order generalizing before with
  | nil => cases h
  | cons first rest ih =>
    rw [misplaced?] at h
    cases hfind : (inputs first).find? fun j => !(first :: before).contains j with
    | some other =>
      rw [hfind] at h
      obtain rfl : other = j := Option.some.inj h
      have hplace : other ∉ first :: before := by simpa using List.find?_some hfind
      rw [List.mem_cons, not_or] at hplace
      exact ⟨[], first, rest, rfl, List.mem_of_find?_eq_some hfind, hplace.1, List.not_mem_nil,
        hplace.2⟩
    | none =>
      rw [hfind] at h
      obtain ⟨pre, i, post, rfl, hinput, hne, hpre, hbefore⟩ := ih h
      rw [List.mem_cons, not_or] at hbefore
      exact ⟨first :: pre, i, post, rfl, hinput, hne,
        List.not_mem_cons_of_ne_of_not_mem hbefore.1 hpre, hbefore.2⟩

variable {scope : List Node}

theorem position?_eq_some {id : String} {i : Nat} (h : position? scope id = some i) :
    ∃ node, scope[i]? = some node ∧ node.id = id := by
  obtain ⟨hi, hid, -⟩ := List.findIdx?_eq_some_iff_getElem.1 h
  exact ⟨scope[i], List.getElem?_eq_getElem hi, by simpa using hid⟩

theorem position?_id (hids : (scope.map Node.id).Nodup) {i : Nat} {node : Node}
    (h : scope[i]? = some node) : position? scope node.id = some i := by
  obtain ⟨hi, rfl⟩ := List.getElem?_eq_some_iff.1 h
  refine List.findIdx?_eq_some_iff_getElem.2 ⟨hi, by simp, fun j hj => ?_⟩
  have hne : scope[j].id ≠ scope[i].id := by
    simpa [h, Nat.lt_trans hj hi] using
      List.nodup_iff_getElem?_ne_getElem?.1 hids j i hj (by simpa using hi)
  simpa using hne

theorem lt_of_mem_readersOf {i j : Nat} (h : j ∈ readersOf scope i) : j < scope.length := by
  rw [readersOf] at h
  split at h
  · simp at h
  · exact List.mem_range.1 (List.mem_of_mem_filter h)

theorem mem_readersOf_self {i : Nat} (h : i ∈ inputsOf scope i) : i ∈ readersOf scope i := by
  rw [inputsOf] at h
  split at h
  · simp at h
  · next node hnode =>
    obtain ⟨input, hinput, hposition⟩ := List.mem_filterMap.1 h
    obtain ⟨source, hsource, rfl⟩ := position?_eq_some hposition
    obtain rfl : node = source := Option.some.inj (hnode.symm.trans hsource)
    have hi : i < scope.length := (List.getElem?_eq_some_iff.1 hnode).1
    simp only [readersOf, hnode, List.mem_filter, List.mem_range, hi, List.contains_iff_mem,
      hinput, and_self]

theorem WellFormed.exists_input (hwell : WellFormed scope) {i : Nat} {node : Node}
    (hi : scope[i]? = some node) {input : String} (hinput : input ∈ node.inputs) :
    ∃ j source, scope[j]? = some source ∧ source.id = input ∧ j ∈ inputsOf scope i := by
  obtain ⟨source, hsource, rfl⟩ :=
    List.mem_map.1 (hwell.known node (List.mem_of_getElem? hi) input hinput)
  obtain ⟨j, hj⟩ := List.mem_iff_getElem?.1 hsource
  refine ⟨j, source, hj, rfl, ?_⟩
  simp only [inputsOf, hi]
  exact List.mem_filterMap.2 ⟨source.id, hinput, position?_id hwell.ids hj⟩

/-- **The order of a scope** holds every position once, and every node after its inputs. -/
theorem order_eq_ok {positions : List Nat} (h : order scope = .ok positions) :
    WellFormed scope ∧ positions.Perm (List.range scope.length) ∧
      ∀ pre i post, positions = pre ++ i :: post → ∀ j ∈ inputsOf scope i, j ∈ pre := by
  obtain ⟨hnodes, horder⟩ := Result.bind_unit_eq_ok.1 h
  refine ⟨checkNodes_eq_ok_iff.1 hnodes, ?_⟩
  cases hof : orderOf scope with
  | error => simp [hof] at horder
  | ok found =>
    rw [hof] at horder
    obtain rfl : found = positions := Except.ok.inj horder
    obtain ⟨walk, hwalk, hplaced⟩ := Result.bind_eq_ok.1 hof
    obtain ⟨hperm, hself⟩ := Walk.perm_of_visitAll
      (fun i j hj => lt_of_mem_readersOf hj) (Nat.le_succ _) hwalk
    cases hmisplaced : misplaced? (inputsOf scope) [] walk.left with
    | some => simp [hmisplaced] at hplaced
    | none =>
      rw [hmisplaced] at hplaced
      obtain rfl : walk.left = found := Except.ok.inj hplaced
      refine ⟨hperm, fun pre i post heq j hj => ?_⟩
      rcases misplaced?_eq_none_iff.1 hmisplaced pre i post heq j hj with rfl | hpre | hnil
      · exact absurd (mem_readersOf_self hj) (hself j (heq ▸ by simp))
      · exact hpre
      · simp at hnil

/-- The inputs of the nodes of a scope that has an order have smaller ranks than the nodes: the
scope has no cycle. -/
theorem exists_rank {positions : List Nat} (h : order scope = .ok positions) :
    ∃ rank : String → Nat, ∀ node ∈ scope, ∀ input ∈ node.inputs, rank input < rank node.id := by
  obtain ⟨hwell, hperm, hplaced⟩ := order_eq_ok h
  -- the rank of a node is its place in the order
  refine ⟨fun id => positions.idxOf ((position? scope id).getD 0), fun node hnode input hin => ?_⟩
  obtain ⟨i, hi⟩ := List.mem_iff_getElem?.1 hnode
  obtain ⟨j, source, hj, rfl, hinput⟩ := hwell.exists_input hi hin
  have hpi := position?_id hwell.ids hi
  have hpj := position?_id hwell.ids hj
  have hmem : i ∈ positions :=
    hperm.mem_iff.2 (List.mem_range.2 (List.getElem?_eq_some_iff.1 hi).1)
  obtain ⟨pre, post, heq⟩ := List.append_of_mem hmem
  have hpre : j ∈ pre := hplaced pre i post heq j hinput
  have hnodup : positions.Nodup := hperm.nodup_iff.2 List.nodup_range
  have hnot : i ∉ pre := fun hi => by
    rw [heq] at hnodup
    exact (List.nodup_append.1 hnodup).2.2 i hi i List.mem_cons_self rfl
  simp only [hpi, hpj, Option.getD_some, heq]
  rw [List.idxOf_append_of_mem hpre, List.idxOf_append_of_notMem hnot, List.idxOf_cons_self]
  exact Nat.lt_of_lt_of_le (List.idxOf_lt_length_of_mem hpre) (Nat.le_add_right _ _)

end Scope

end ViewCompiler
