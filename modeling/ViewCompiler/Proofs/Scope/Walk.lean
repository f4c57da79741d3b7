import ViewCompiler.Proofs.Scope.Order
import Mathlib.Logic.Relation

/-!
# Walks and cycles

The nodes that a walk has come to and not yet left lie on a path to the node where it is. So a
reader that is still open when a node is left leads to that node: the two lie on a cycle.

* `Walk.Leads`: the graph of a walk.
* `Walk.Settled`: every node was left after its readers, save those that lead back to it.
* `Walk.visit_settled`: **a walk keeps this in every graph.**
* `Walk.reads_itself`: a walk fails only at a node that reads itself.
-/

namespace ViewCompiler

namespace Walk

variable {readers : Nat → List Nat} {n fuel i : Nat} {walk walk' : Walk}

/-- A node leads to its readers. -/
def Leads (readers : Nat → List Nat) (i j : Nat) : Prop := j ∈ readers i

/-- Every node was left after its readers, save those that lead back to it; the list begins with
the node that was left last. -/
def Settled (readers : Nat → List Nat) (left : List Nat) : Prop :=
  ∀ pre i post, left = pre ++ i :: post →
    ∀ j ∈ readers i, j ∈ post ∨ Relation.TransGen (Leads readers) j i

theorem settled_nil : Settled readers [] := by simp [Settled]

theorem Settled.cons {left : List Nat} (h : Settled readers left)
    (hi : ∀ j ∈ readers i, j ∈ left ∨ Relation.TransGen (Leads readers) j i) :
    Settled readers (i :: left) := by
  intro pre k post heq j hj
  rcases pre with - | ⟨first, pre⟩
  · obtain ⟨rfl, rfl⟩ := List.cons_eq_cons.1 heq
    exact hi j hj
  · obtain ⟨rfl, rfl⟩ := List.cons_eq_cons.1 heq
    exact h pre k post rfl j hj

/-- A walk is ready to go to a node: the nodes that it has come to and not yet left lie on a path to
that node. -/
structure Ready (readers : Nat → List Nat) (n : Nat) (walk : Walk) (i : Nat) : Prop where
  bound : i < n
  sound : Sound readers n walk
  path : ∀ k ∈ walk.found, k ∈ walk.left ∨ Relation.TransGen (Leads readers) k i

theorem Ready.of_grows (h : Ready readers n walk i) (hgrows : Grows walk walk')
    (hsound : Sound readers n walk') : Ready readers n walk' i where
  bound := h.bound
  sound := hsound
  path k hk := by
    rcases hgrows.leaves k hk with hfound | hleft
    · exact (h.path k hfound).imp_left fun hleft => hgrows.left hleft
    · exact .inl hleft

theorem Ready.enter (h : Ready readers n walk i) (hreaders : ∀ i, ∀ j ∈ readers i, j < n) {j : Nat}
    (hj : j ∈ readers i) : Ready readers n { walk with found := i :: walk.found } j where
  bound := hreaders i j hj
  sound := h.sound.enter h.bound
  path := List.forall_mem_cons.2
    ⟨.inr (.single hj), fun k hk => (h.path k hk).imp_right fun hpath => hpath.tail hj⟩

/-- A walk to several nodes keeps what a walk to each of them keeps. -/
theorem foldlM_visit_settled (hreaders : ∀ i, ∀ j ∈ readers i, j < n)
    (hvisit : ∀ walk i walk', visit readers fuel walk i = .ok walk' → Ready readers n walk i →
      Settled readers walk.left → unfound n walk ≤ fuel → Settled readers walk'.left)
    {nodes : List Nat} (h : nodes.foldlM (visit readers fuel) walk = .ok walk')
    (hready : ∀ i ∈ nodes, Ready readers n walk i) (hsettled : Settled readers walk.left)
    (hfuel : unfound n walk ≤ fuel) : Settled readers walk'.left := by
  induction nodes generalizing walk with
  | nil =>
    obtain rfl : walk = walk' := Except.ok.inj h
    exact hsettled
  | cons i rest ih =>
    obtain ⟨hfirst, hrest⟩ := List.forall_mem_cons.1 hready
    obtain ⟨between, hbetween, hwalk⟩ := Result.bind_eq_ok.1 h
    obtain ⟨hgrows, hsound, -⟩ :=
      visit_spec hreaders fuel walk i between hbetween hfirst.sound hfirst.bound hfuel
    exact ih hwalk (fun j hj => (hrest j hj).of_grows hgrows hsound)
      (hvisit walk i between hbetween hfirst hsettled hfuel)
      (Nat.le_trans hgrows.unfound_le hfuel)

/-- **A walk leaves every node after its readers, save those that lead back to it.** -/
theorem visit_settled (hreaders : ∀ i, ∀ j ∈ readers i, j < n) (fuel : Nat) (walk : Walk) (i : Nat)
    (walk' : Walk) (h : visit readers fuel walk i = .ok walk') (hready : Ready readers n walk i)
    (hsettled : Settled readers walk.left) (hfuel : unfound n walk ≤ fuel) :
    Settled readers walk'.left := by
  induction fuel generalizing walk i walk' with
  | zero =>
    obtain rfl : walk = walk' := Except.ok.inj h
    exact hsettled
  | succ fuel ih =>
    obtain ⟨-, rfl⟩ | ⟨hfound, hself, last, hfold, rfl⟩ := visit_eq_ok h
    · exact hsettled
    have hless := unfound_enter_lt hready.bound hfound
    have hlast := foldlM_visit_settled hreaders ih hfold (fun j hj => hready.enter hreaders hj)
      hsettled (by omega)
    obtain ⟨hgrows, -, hall⟩ := foldlM_visit (visit_spec hreaders fuel) hfold
      (hready.sound.enter hready.bound) (hreaders i) (by omega)
    refine hlast.cons fun j hj => ?_
    rcases hgrows.leaves j (hall j hj) with hopen | hleft
    · -- a reader that was found before and is not left lies on the path to `i`
      rcases List.mem_cons.1 hopen with rfl | hopen
      · exact absurd hj hself
      · exact (hready.path j hopen).imp_left fun hleft => hgrows.left hleft
    · exact .inl hleft

/-- A walk to all nodes leaves every node after its readers, save those that lead back to it. -/
theorem visitAll_settled (hreaders : ∀ i, ∀ j ∈ readers i, j < n) (hfuel : n ≤ fuel)
    (h : visitAll readers fuel (List.range n) = .ok walk) : Settled readers walk.left := by
  have hempty : Sound readers n {} := ⟨List.nodup_nil, by simp, by simp, by simp⟩
  exact foldlM_visit_settled hreaders (visit_settled hreaders fuel) h
    (fun i hi => ⟨List.mem_range.1 hi, hempty, by simp⟩) settled_nil
    (by simpa [unfound] using hfuel)

/-- A walk fails only at a node that reads itself. -/
theorem reads_itself {j : Nat} (h : visit readers fuel walk i = .error j) :
    j ∈ readers j := by
  induction fuel generalizing walk i with
  | zero => cases h
  | succ fuel ih =>
    by_cases hfound : i ∈ walk.found
    · rw [visit_of_found hfound] at h
      cases h
    by_cases hself : i ∈ readers i
    · rw [visit_of_self hfound hself] at h
      exact Except.error.inj h ▸ hself
    · rw [visit_of_new hfound hself] at h
      rcases Result.bind_eq_error.1 h with hfold | ⟨last, -, hlast⟩
      · obtain ⟨between, k, -, hvisit⟩ := Result.exists_of_foldlM_eq_error hfold
        exact ih hvisit
      · cases hlast

end Walk

end ViewCompiler
