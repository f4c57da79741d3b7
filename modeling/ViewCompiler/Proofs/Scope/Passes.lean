import ViewCompiler.Proofs.Scope.Acyclic

/-!
# The order by two passes over a graph

A graph is sorted by going over its edges twice. The first pass searches it depth first, with a
stack of the nodes that it has still to go to; a node stays on the stack until the search comes back
to it. The second pass goes through the nodes in the reverse of the order in which the first one was
done with them and looks, against the edges, for one that was not found yet: there is a cycle if it
finds two nodes in a row.

* `Scope.edges`: the graph of a scope, with the edges that were added last in front.
* `Walk.FirstPass`, `Scope.secondPass`, `Scope.TwoPasses`: the passes and how they end.
* `Walk.firstPass_iff`: **the search with a stack does what the recursive walk does.**
* `Scope.twoPasses_iff`: **the two passes end with the order of a scope, or with the position in its
  error.**
-/

namespace ViewCompiler

/-! ### The search with a stack -/

namespace Walk

variable {next readers : Nat → List Nat} {n fuel i : Nat} {roots stack : List Nat} {walk : Walk}
  {result : Except Nat Walk}

/-- The first pass with the nodes to start from, the stack and the walk so far, and its result. -/
inductive FirstPass (next : Nat → List Nat) :
    List Nat → List Nat → Walk → Except Nat Walk → Prop
  | done {walk : Walk} : FirstPass next [] [] walk (.ok walk)
  | seen {i : Nat} {roots : List Nat} {walk : Walk} {result : Except Nat Walk}
      (hi : i ∈ walk.found) (h : FirstPass next roots [] walk result) :
      FirstPass next (i :: roots) [] walk result
  | start {i : Nat} {roots : List Nat} {walk : Walk} {result : Except Nat Walk}
      (hi : i ∉ walk.found) (h : FirstPass next roots [i] walk result) :
      FirstPass next (i :: roots) [] walk result
  /-- An edge from a node to itself is an error at once. -/
  | self {i : Nat} {roots stack : List Nat} {walk : Walk}
      (hi : i ∉ walk.found) (hself : i ∈ next i) :
      FirstPass next roots (i :: stack) walk (.error i)
  /-- A node stays below the nodes that follow it and that were not found before. -/
  | enter {i : Nat} {roots stack : List Nat} {walk : Walk} {result : Except Nat Walk}
      (hi : i ∉ walk.found) (hself : i ∉ next i)
      (h : FirstPass next roots (((next i).filter (· ∉ walk.found)).reverse ++ i :: stack)
        { walk with found := i :: walk.found } result) :
      FirstPass next roots (i :: stack) walk result
  | leave {i : Nat} {roots stack : List Nat} {walk : Walk} {result : Except Nat Walk}
      (hi : i ∈ walk.found) (hleft : i ∉ walk.left)
      (h : FirstPass next roots stack { walk with left := i :: walk.left } result) :
      FirstPass next roots (i :: stack) walk result
  | drop {i : Nat} {roots stack : List Nat} {walk : Walk} {result : Except Nat Walk}
      (hi : i ∈ walk.found) (hleft : i ∈ walk.left) (h : FirstPass next roots stack walk result) :
      FirstPass next roots (i :: stack) walk result

theorem FirstPass.unique {result' : Except Nat Walk} (h : FirstPass next roots stack walk result)
    (h' : FirstPass next roots stack walk result') : result = result' := by
  induction h with
  | done =>
    cases h'
    rfl
  | seen hi _ ih =>
    cases h' with
    | seen _ h => exact ih h
    | start hnew _ => exact absurd hi hnew
  | start hnew _ ih =>
    cases h' with
    | seen hi _ => exact absurd hi hnew
    | start _ h => exact ih h
  | self hnew hself =>
    cases h' with
    | self _ _ => rfl
    | enter _ hnotSelf _ => exact absurd hself hnotSelf
    | leave hi _ _ => exact absurd hi hnew
    | drop hi _ _ => exact absurd hi hnew
  | enter hnew hnotSelf _ ih =>
    cases h' with
    | self _ hself => exact absurd hself hnotSelf
    | enter _ _ h => exact ih h
    | leave hi _ _ => exact absurd hi hnew
    | drop hi _ _ => exact absurd hi hnew
  | leave hi hnotLeft _ ih =>
    cases h' with
    | self hnew _ => exact absurd hi hnew
    | enter hnew _ _ => exact absurd hi hnew
    | leave _ _ h => exact ih h
    | drop _ hleft _ => exact absurd hleft hnotLeft
  | drop hi hleft _ ih =>
    cases h' with
    | self hnew _ => exact absurd hi hnew
    | enter hnew _ _ => exact absurd hi hnew
    | leave _ hnotLeft _ => exact absurd hleft hnotLeft
    | drop _ _ h => exact ih h

/-- How the first pass ends after a walk: it goes on, or the walk has failed. -/
def Continues (next : Nat → List Nat) (roots stack : List Nat) (result : Except Nat Walk) :
    Except Nat Walk → Prop
  | .ok walk => FirstPass next roots stack walk result
  | .error i => result = .error i

/-- A walk to several nodes is what the first pass does with those of them on the stack that were
not found before they were put there. -/
theorem firstPass_foldlM (hreaders : ∀ i, ∀ j ∈ readers i, j < n)
    (hvisit : ∀ walk i, Sound readers n walk → i < n → unfound n walk ≤ fuel →
      (i ∈ walk.found → i ∈ walk.left) → ∀ stack,
        Continues next roots stack result (visit readers fuel walk i) →
          FirstPass next roots (i :: stack) walk result)
    {seen nodes : List Nat} (hsound : Sound readers n walk) (hnodes : ∀ i ∈ nodes, i < n)
    (hfuel : unfound n walk ≤ fuel) (hseen : seen ⊆ walk.found)
    (hleft : ∀ i ∈ nodes, i ∈ walk.found → i ∈ seen ∨ i ∈ walk.left)
    (h : Continues next roots stack result (nodes.foldlM (visit readers fuel) walk)) :
    FirstPass next roots (nodes.filter (· ∉ seen) ++ stack) walk result := by
  induction nodes generalizing walk with
  | nil => exact h
  | cons i rest ih =>
    obtain ⟨hi, hrest⟩ := List.forall_mem_cons.1 hnodes
    obtain ⟨hileft, hrestLeft⟩ := List.forall_mem_cons.1 hleft
    rw [List.foldlM_cons] at h
    by_cases hmem : i ∈ seen
    · rw [visit_of_found (hseen hmem)] at h
      rw [List.filter_cons_of_neg (by simpa using hmem)]
      exact ih hsound hrest hfuel hseen hrestLeft h
    · rw [List.filter_cons_of_pos (by simpa using hmem), List.cons_append]
      refine hvisit walk i hsound hi hfuel (fun hfound => (hileft hfound).resolve_left hmem) _ ?_
      cases hbetween : visit readers fuel walk i with
      | error j =>
        rw [hbetween] at h
        exact h
      | ok between =>
        rw [hbetween] at h
        obtain ⟨hgrows, hsound', -⟩ :=
          visit_spec hreaders fuel walk i between hbetween hsound hi hfuel
        refine ih hsound' hrest (Nat.le_trans hgrows.unfound_le hfuel)
          (List.Subset.trans hseen hgrows.found) (fun j hj hfound => ?_) h
        rcases hgrows.leaves j hfound with hold | hnew
        · exact (hrestLeft j hj hold).imp_right fun hleft => hgrows.left hleft
        · exact .inr hnew

/-- **A walk to a node is what the first pass does with it on top of the stack.** -/
theorem firstPass_visit (hreaders : ∀ i, ∀ j ∈ readers i, j < n)
    (hnext : ∀ i, next i = (readers i).reverse) (fuel : Nat) (walk : Walk) (i : Nat)
    (hsound : Sound readers n walk) (hi : i < n) (hfuel : unfound n walk ≤ fuel)
    (hleft : i ∈ walk.found → i ∈ walk.left) (stack : List Nat)
    (h : Continues next roots stack result (visit readers fuel walk i)) :
    FirstPass next roots (i :: stack) walk result := by
  induction fuel generalizing walk i stack with
  | zero =>
    -- no node is left to come to
    have hfound : i ∈ walk.found := by
      by_contra hnew
      have hless := unfound_enter_lt hi hnew
      omega
    exact .drop hfound (hleft hfound) h
  | succ fuel ih =>
    by_cases hfound : i ∈ walk.found
    · rw [visit_of_found hfound] at h
      exact .drop hfound (hleft hfound) h
    by_cases hself : i ∈ readers i
    · rw [visit_of_self hfound hself] at h
      obtain rfl : result = .error i := h
      exact .self hfound (by simpa [hnext] using hself)
    rw [visit_of_new hfound hself] at h
    have hless : unfound n { walk with found := i :: walk.found } ≤ fuel := by
      have hless := unfound_enter_lt hi hfound
      omega
    -- the nodes that are put on the stack are those that the walk goes to next
    have hpushed : ((next i).filter (· ∉ walk.found)).reverse =
        (readers i).filter (· ∉ i :: walk.found) := by
      rw [hnext, List.filter_reverse, List.reverse_reverse]
      refine List.filter_congr fun j hj => ?_
      have hne : j ≠ i := fun heq => hself (heq ▸ hj)
      simp [hne]
    refine .enter hfound (by simpa [hnext] using hself) ?_
    rw [hpushed]
    refine firstPass_foldlM hreaders ih (hsound.enter hi) (hreaders i) hless
      (List.Subset.refl _) (fun j _ hj => .inl hj) ?_
    cases hfold : (readers i).foldlM (visit readers fuel)
        { walk with found := i :: walk.found } with
    | error j =>
      rw [hfold] at h
      exact h
    | ok last =>
      rw [hfold] at h
      obtain ⟨hgrows, -, -⟩ := foldlM_visit (visit_spec hreaders fuel) hfold
        (hsound.enter hi) (hreaders i) hless
      exact .leave (hgrows.found List.mem_cons_self) (hgrows.notMem_left hsound hfound) h

/-- A walk to several nodes, where none is open, is the first pass that starts from them. -/
theorem firstPass_roots (hreaders : ∀ i, ∀ j ∈ readers i, j < n)
    (hnext : ∀ i, next i = (readers i).reverse) (hsound : Sound readers n walk)
    (hroots : ∀ i ∈ roots, i < n) (hfuel : unfound n walk ≤ fuel)
    (hleft : ∀ i ∈ walk.found, i ∈ walk.left) :
    FirstPass next roots [] walk (roots.foldlM (visit readers fuel) walk) := by
  induction roots generalizing walk with
  | nil => exact .done
  | cons i rest ih =>
    obtain ⟨hi, hrest⟩ := List.forall_mem_cons.1 hroots
    rw [List.foldlM_cons]
    by_cases hfound : i ∈ walk.found
    · rw [visit_of_found hfound]
      exact .seen hfound (ih hsound hrest hfuel hleft)
    refine .start hfound (firstPass_visit hreaders hnext fuel walk i hsound hi hfuel
      (fun hmem => absurd hmem hfound) [] ?_)
    cases hvisit : visit readers fuel walk i with
    | error j => rfl
    | ok between =>
      obtain ⟨hgrows, hsound', -⟩ := visit_spec hreaders fuel walk i between hvisit hsound hi hfuel
      refine ih hsound' hrest (Nat.le_trans hgrows.unfound_le hfuel) fun j hj => ?_
      rcases hgrows.leaves j hj with hold | hnew
      · exact hgrows.left (hleft j hold)
      · exact hnew

/-- **The search with a stack, over the readers in reverse, does what the recursive walk does.** -/
theorem firstPass_iff (hreaders : ∀ i, ∀ j ∈ readers i, j < n)
    (hnext : ∀ i, next i = (readers i).reverse) (hfuel : n ≤ fuel) :
    FirstPass next (List.range n) [] {} result ↔
      visitAll readers fuel (List.range n) = result := by
  have hwalk : FirstPass next (List.range n) [] {} (visitAll readers fuel (List.range n)) :=
    firstPass_roots hreaders hnext ⟨List.nodup_nil, by simp, by simp, by simp⟩
      (fun i hi => List.mem_range.1 hi) (by simpa [unfound] using hfuel) (by simp)
  constructor
  · intro h
    exact hwalk.unique h
  · rintro rfl
    exact hwalk

end Walk

/-! ### The graph and the second pass -/

namespace Scope

variable {scope : List Node}

/-- The edges of a scope, from the inputs to the nodes that read them. The nodes and their inputs
are gone through in order, and each edge is put in front of those before. -/
def edges (scope : List Node) : List (Nat × Nat) :=
  ((List.range scope.length).flatMap fun j => (inputsOf scope j).map fun i => (i, j)).reverse

/-- The nodes that the edges lead to from a node. -/
def successors (edges : List (Nat × Nat)) (i : Nat) : List Nat :=
  (edges.filter fun edge => edge.1 = i).map Prod.snd

/-- The nodes from which the edges lead to a node. -/
def predecessors (edges : List (Nat × Nat)) (j : Nat) : List Nat :=
  (edges.filter fun edge => edge.2 = j).map Prod.fst

/-- The next node of a search, with the nodes found then and the stack: the first on the stack that
was not found before. -/
def next? (next : Nat → List Nat) (found : List Nat) : List Nat → Option (Nat × List Nat × List Nat)
  | [] => none
  | i :: stack =>
    if i ∈ found then next? next found stack
    else some (i, i :: found, ((next i).filter (· ∉ i :: found)).reverse ++ stack)

/-- The second pass: the first node that a search finds after the one from which it starts. -/
def secondPass (next : Nat → List Nat) (found : List Nat) : List Nat → Option Nat
  | [] => none
  | i :: rest =>
    match next? next found [i] with
    | none => secondPass next found rest
    | some (_, found, stack) =>
      match next? next found stack with
      | none => secondPass next found rest
      | some (j, _, _) => some j

/-- How the two passes over a graph with `n` nodes end: with its nodes in order, or at a node. -/
inductive TwoPasses (edges : List (Nat × Nat)) (n : Nat) : Except Nat (List Nat) → Prop
  | loop {i : Nat}
      (h : Walk.FirstPass (successors edges) (List.range n) [] {} (.error i)) :
      TwoPasses edges n (.error i)
  | cycle {walk : Walk} {j : Nat}
      (h : Walk.FirstPass (successors edges) (List.range n) [] {} (.ok walk))
      (hfind : secondPass (predecessors edges) [] walk.left = some j) :
      TwoPasses edges n (.error j)
  | order {walk : Walk}
      (h : Walk.FirstPass (successors edges) (List.range n) [] {} (.ok walk))
      (hfind : secondPass (predecessors edges) [] walk.left = none) :
      TwoPasses edges n (.ok walk.left)

/-! ### The graph of a scope -/

theorem nodup_inputsOf (hdistinct : ∀ node ∈ scope, node.inputs.Nodup) (j : Nat) :
    (inputsOf scope j).Nodup := by
  rw [inputsOf]
  cases hj : scope[j]? with
  | none => exact List.nodup_nil
  | some node =>
    refine (hdistinct node (List.mem_of_getElem? hj)).filterMap fun id id' i hi hi' => ?_
    obtain ⟨source, hsource, rfl⟩ := position?_eq_some hi
    obtain ⟨source', hsource', rfl⟩ := position?_eq_some hi'
    rw [Option.some.inj (hsource.symm.trans hsource')]

theorem readersOf_eq_filter (hids : (scope.map Node.id).Nodup) (i : Nat) :
    readersOf scope i = (List.range scope.length).filter fun j => i ∈ inputsOf scope j := by
  obtain ⟨reads, hreads⟩ :
      ∃ reads : Nat → Bool, readersOf scope i = (List.range scope.length).filter reads := by
    rw [readersOf]
    cases scope[i]? with
    | none => exact ⟨fun _ => false, by simp⟩
    | some source => exact ⟨_, rfl⟩
  rw [hreads]
  refine List.filter_congr fun j hj => ?_
  rw [Bool.eq_iff_iff, decide_eq_true_iff, ← mem_readersOf_iff hids, hreads, List.mem_filter]
  exact ⟨fun h => ⟨hj, h⟩, And.right⟩

/-- Blocks that are empty where a condition fails are those of the items that meet it. -/
theorem flatMap_ite_nil {α β : Type} (items : List α) (p : α → Prop) [DecidablePred p]
    (f : α → List β) :
    (items.flatMap fun item => if p item then f item else []) = (items.filter p).flatMap f := by
  induction items with
  | nil => rfl
  | cons item rest ih =>
    rw [List.flatMap_cons, ih]
    by_cases hp : p item
    · rw [if_pos hp, List.filter_cons_of_pos (by simpa using hp), List.flatMap_cons]
    · rw [if_neg hp, List.filter_cons_of_neg (by simpa using hp), List.nil_append]

/-- The edges lead to the readers of a node, from the last one to the first. -/
theorem successors_edges (hids : (scope.map Node.id).Nodup)
    (hdistinct : ∀ node ∈ scope, node.inputs.Nodup) (i : Nat) :
    successors (edges scope) i = (readersOf scope i).reverse := by
  have hblock : ∀ j, (((inputsOf scope j).map fun k => (k, j)).filter fun edge => edge.1 = i).map
      Prod.snd = if i ∈ inputsOf scope j then [j] else [] := by
    intro j
    have hone : (inputsOf scope j).filter (fun k => k = i) =
        if i ∈ inputsOf scope j then [i] else [] := by
      rw [List.filter_eq, (nodup_inputsOf hdistinct j).count]
      split <;> rfl
    rw [List.filter_map, List.map_map]
    change ((inputsOf scope j).filter fun k => k = i).map (fun _ => j) = _
    rw [hone]
    split <;> rfl
  rw [successors, edges, List.filter_reverse, List.map_reverse, List.filter_flatMap,
    List.map_flatMap]
  simp only [hblock, flatMap_ite_nil, List.flatMap_singleton', readersOf_eq_filter hids]

theorem predecessors_edges (j : Nat) :
    predecessors (edges scope) j = (inputsOf scope j).reverse := by
  have hblock : ∀ k, (((inputsOf scope k).map fun i => (i, k)).filter fun edge => edge.2 = j).map
      Prod.fst = if k = j then inputsOf scope k else [] := by
    intro k
    rw [List.filter_map, List.map_map]
    change ((inputsOf scope k).filter fun _ => k = j).map id = _
    by_cases heq : k = j
    · simp [heq]
    · simp [heq]
  rw [predecessors, edges, List.filter_reverse, List.map_reverse, List.filter_flatMap,
    List.map_flatMap]
  simp only [hblock, flatMap_ite_nil, List.filter_eq, List.count_range]
  by_cases hlt : j < scope.length
  · rw [if_pos hlt, List.replicate_one, List.flatMap_singleton]
  · have hnone : scope[j]? = none := List.getElem?_eq_none (Nat.le_of_not_lt hlt)
    rw [if_neg hlt, List.replicate_zero, List.flatMap_nil, inputsOf, hnone]

/-! ### The order -/

/-- The search from a node that was not found finds it first, and has its inputs on the stack. -/
theorem next?_of_new {inputs next : Nat → List Nat} {found : List Nat} {i : Nat}
    (hnext : next i = (inputs i).reverse) (hnew : i ∉ found) :
    next? next found [i] =
      some (i, i :: found, (inputs i).filter fun j => !(i :: found).contains j) := by
  have hstack : ((inputs i).reverse.filter (· ∉ i :: found)).reverse =
      (inputs i).filter fun j => !(i :: found).contains j := by
    rw [List.filter_reverse, List.reverse_reverse]
    exact List.filter_congr fun j _ => by simp
  rw [next?, if_neg hnew, hnext, hstack, List.append_nil]

/-- **The second pass ends at the first input that is out of place.** -/
theorem secondPass_eq_misplaced? {inputs next : Nat → List Nat}
    (hnext : ∀ i, next i = (inputs i).reverse) {found order : List Nat} (hnodup : order.Nodup)
    (hnew : ∀ i ∈ order, i ∉ found) :
    secondPass next found order = misplaced? inputs found order := by
  induction order generalizing found with
  | nil => rfl
  | cons i rest ih =>
    obtain ⟨hi, hrest⟩ := List.nodup_cons.1 hnodup
    obtain ⟨hinew, hrestNew⟩ := List.forall_mem_cons.1 hnew
    have hgoesOn : secondPass next (i :: found) rest = misplaced? inputs (i :: found) rest := by
      refine ih hrest fun j hj hmem => ?_
      rcases List.mem_cons.1 hmem with rfl | hmem
      · exact hi hj
      · exact hrestNew j hj hmem
    rw [secondPass, next?_of_new (hnext i) hinew, misplaced?, ← List.head?_filter]
    -- no input on the stack was found before, so the search finds the first of them
    cases hstack : (inputs i).filter fun j => !(i :: found).contains j with
    | nil => exact hgoesOn
    | cons j stack =>
      have hj : j ∉ i :: found := by
        have hmem : j ∈ (inputs i).filter fun j => !(i :: found).contains j :=
          hstack ▸ List.mem_cons_self
        simpa using (List.mem_filter.1 hmem).2
      simp only [next?, if_neg hj, List.head?_cons]

/-- The walk to all nodes of a scope. -/
def walkOf (scope : List Node) : Except Nat Walk :=
  Walk.visitAll (readersOf scope) (scope.length + 1) (List.range scope.length)

theorem orderOf_of_loop {i : Nat} (h : walkOf scope = .error i) : orderOf scope = .error i := by
  change walkOf scope >>= _ = _
  rw [h]
  rfl

theorem orderOf_of_misplaced {walk : Walk} {j : Nat} (h : walkOf scope = .ok walk)
    (hfind : misplaced? (inputsOf scope) [] walk.left = some j) : orderOf scope = .error j :=
  Result.bind_eq_error.2 (.inr ⟨walk, h, by rw [hfind]⟩)

theorem orderOf_of_placed {walk : Walk} (h : walkOf scope = .ok walk)
    (hfind : misplaced? (inputsOf scope) [] walk.left = none) : orderOf scope = .ok walk.left :=
  Result.bind_eq_ok.2 ⟨walk, h, by rw [hfind]⟩

/-- **The two passes over the graph of a scope end with its order, or with the position in the
error.** -/
theorem twoPasses_iff (hids : (scope.map Node.id).Nodup)
    (hdistinct : ∀ node ∈ scope, node.inputs.Nodup) {result : Except Nat (List Nat)} :
    TwoPasses (edges scope) scope.length result ↔ orderOf scope = result := by
  have hreaders : ∀ i, ∀ j ∈ readersOf scope i, j < scope.length :=
    fun i j hj => lt_of_mem_readersOf hj
  have hfuel := Nat.le_succ scope.length
  have hfirst : ∀ {ends : Except Nat Walk},
      Walk.FirstPass (successors (edges scope)) (List.range scope.length) [] {} ends ↔
        walkOf scope = ends :=
    Walk.firstPass_iff hreaders (successors_edges hids hdistinct) hfuel
  have hsecond : ∀ {walk : Walk}, walkOf scope = .ok walk →
      secondPass (predecessors (edges scope)) [] walk.left =
        misplaced? (inputsOf scope) [] walk.left := by
    intro walk hwalk
    have hperm := (Walk.perm_of_visitAll hreaders hfuel hwalk).1
    exact secondPass_eq_misplaced? predecessors_edges (hperm.nodup_iff.2 List.nodup_range)
      fun _ _ => List.not_mem_nil
  constructor
  · intro h
    cases h with
    | loop h => exact orderOf_of_loop (hfirst.1 h)
    | cycle h hfind => exact orderOf_of_misplaced (hfirst.1 h) (hsecond (hfirst.1 h) ▸ hfind)
    | order h hfind => exact orderOf_of_placed (hfirst.1 h) (hsecond (hfirst.1 h) ▸ hfind)
  · rintro rfl
    cases hwalk : walkOf scope with
    | error i =>
      rw [orderOf_of_loop hwalk]
      exact .loop (hfirst.2 hwalk)
    | ok walk =>
      cases hplaces : misplaced? (inputsOf scope) [] walk.left with
      | some j =>
        rw [orderOf_of_misplaced hwalk hplaces]
        exact .cycle (hfirst.2 hwalk) ((hsecond hwalk).trans hplaces)
      | none =>
        rw [orderOf_of_placed hwalk hplaces]
        exact .order (hfirst.2 hwalk) ((hsecond hwalk).trans hplaces)

end Scope

end ViewCompiler
