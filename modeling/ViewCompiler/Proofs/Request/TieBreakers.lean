import Mathlib.Data.List.Nodup
import ViewCompiler.Request.Search

/-!
# The order of a search is the same on every page

The caller's items are followed by the tie breakers of the engine, and a field that has come before
is not asked for again.

* `SortClause.FirstAt`: an item that is the first one of its field.
* `SortClause.find?_withoutRepeats`: the first item of every field stays.
* `SortClause.withoutRepeats_append_of_subset`: items whose fields are there already add nothing.
* `SortClause.completed_first_items`: **the completed order consists of the first item of every
  field, in the order of the items; it holds the key of the documents if pages are found by a
  cursor, and there is nothing left to complete.**
-/

namespace ViewCompiler

/-- The field of a search engine that is different in all documents. -/
def Engine.documentKey? : Engine → Option String
  | .indexBase => some "__id"
  | .rawSearch => some "_id"
  | .sql => none

namespace SortClause

variable {sort more : List SortClause} {seen : List String} {name : String}

/-- At the position stands an item whose field has not been seen and no item before it has. -/
def FirstAt (seen : List String) (sort : List SortClause) (i : Nat) : Prop :=
  ∃ clause, sort[i]? = some clause ∧ clause.field ∉ seen ++ (sort.take i).map field

theorem withoutRepeats_cons_of_mem {clause : SortClause} (hseen : clause.field ∈ seen) :
    withoutRepeats seen (clause :: sort) = withoutRepeats seen sort := by
  rw [withoutRepeats, if_pos (List.contains_iff_mem.2 hseen)]

theorem withoutRepeats_cons_of_notMem {clause : SortClause} (hnew : clause.field ∉ seen) :
    withoutRepeats seen (clause :: sort) =
      clause :: withoutRepeats (clause.field :: seen) sort := by
  rw [withoutRepeats, if_neg (mt List.contains_iff_mem.1 hnew)]

theorem mem_fields_withoutRepeats :
    name ∈ (withoutRepeats seen sort).map field ↔ name ∉ seen ∧ name ∈ sort.map field := by
  induction sort generalizing seen with
  | nil => simp [withoutRepeats]
  | cons clause rest ih =>
    by_cases hseen : clause.field ∈ seen
    · rw [withoutRepeats_cons_of_mem hseen, ih, List.map_cons, List.mem_cons]
      constructor
      · rintro ⟨hnew, hrest⟩
        exact ⟨hnew, .inr hrest⟩
      · rintro ⟨hnew, rfl | hrest⟩
        · exact absurd hseen hnew
        · exact ⟨hnew, hrest⟩
    · rw [withoutRepeats_cons_of_notMem hseen, List.map_cons, List.mem_cons, ih, List.map_cons,
        List.mem_cons, List.mem_cons, not_or]
      constructor
      · rintro (rfl | ⟨⟨-, hnew⟩, hrest⟩)
        · exact ⟨hseen, .inl rfl⟩
        · exact ⟨hnew, .inr hrest⟩
      · rintro ⟨hnew, rfl | hrest⟩
        · exact .inl rfl
        · by_cases hname : name = clause.field
          · exact .inl hname
          · exact .inr ⟨⟨hname, hnew⟩, hrest⟩

theorem nodup_fields_withoutRepeats (seen : List String) (sort : List SortClause) :
    ((withoutRepeats seen sort).map field).Nodup := by
  induction sort generalizing seen with
  | nil => exact List.nodup_nil
  | cons clause rest ih =>
    by_cases hseen : clause.field ∈ seen
    · rw [withoutRepeats_cons_of_mem hseen]
      exact ih seen
    · rw [withoutRepeats_cons_of_notMem hseen]
      refine List.nodup_cons.2 ⟨fun hmem => ?_, ih _⟩
      exact (mem_fields_withoutRepeats.1 hmem).1 List.mem_cons_self

/-- The first item of a field stays. -/
theorem find?_withoutRepeats (hnew : name ∉ seen) :
    (withoutRepeats seen sort).find? (·.field = name) = sort.find? (·.field = name) := by
  induction sort generalizing seen with
  | nil => rfl
  | cons clause rest ih =>
    by_cases hname : clause.field = name
    · subst hname
      rw [withoutRepeats_cons_of_notMem hnew, List.find?_cons_of_pos (by simp),
        List.find?_cons_of_pos (by simp)]
    rw [List.find?_cons_of_neg (by simpa using hname)]
    by_cases hseen : clause.field ∈ seen
    · rw [withoutRepeats_cons_of_mem hseen, ih hnew]
    · rw [withoutRepeats_cons_of_notMem hseen, List.find?_cons_of_neg (by simpa using hname)]
      exact ih (List.not_mem_cons_of_ne_of_not_mem (Ne.symm hname) hnew)

theorem firstAt_zero {clause : SortClause} :
    FirstAt seen (clause :: sort) 0 ↔ clause.field ∉ seen := by
  simp [FirstAt]

theorem firstAt_succ {clause : SortClause} {i : Nat} :
    FirstAt seen (clause :: sort) (i + 1) ↔ FirstAt (clause.field :: seen) sort i := by
  simp only [FirstAt, List.getElem?_cons_succ, List.take_succ_cons, List.map_cons]
  refine exists_congr fun other => and_congr_right fun _ => not_congr ?_
  rw [List.mem_append, List.mem_append, List.mem_cons, List.mem_cons, or_left_comm, or_assoc]

theorem firstAt_cons_of_mem {i : Nat} (hname : name ∈ seen) :
    FirstAt (name :: seen) sort i ↔ FirstAt seen sort i := by
  refine exists_congr fun clause => and_congr_right fun _ => not_congr ?_
  rw [List.cons_append, List.mem_cons]
  exact or_iff_right_of_imp fun heq => List.mem_append_left _ (heq ▸ hname)

/-- The items that stay are those at the positions where a field comes first. -/
theorem exists_positions (seen : List String) (sort : List SortClause) :
    ∃ positions : List Nat, positions.Pairwise (· < ·) ∧
      (∀ i, i ∈ positions ↔ FirstAt seen sort i) ∧
      (withoutRepeats seen sort).map some = positions.map fun i => sort[i]? := by
  induction sort generalizing seen with
  | nil => exact ⟨[], List.Pairwise.nil, by simp [FirstAt], rfl⟩
  | cons clause rest ih =>
    -- the positions behind the first one are those of the rest, where its field has been seen
    obtain ⟨positions, hsorted, hmem, hitems⟩ :=
      ih (if clause.field ∈ seen then seen else clause.field :: seen)
    have hlater : (positions.map (· + 1)).Pairwise (· < ·) :=
      List.pairwise_map.2 (hsorted.imp Nat.succ_lt_succ)
    have hrest : ∀ i, i + 1 ∈ positions.map (· + 1) ↔ FirstAt seen (clause :: rest) (i + 1) := by
      intro i
      rw [List.mem_map_of_injective fun _ _ => Nat.succ.inj, hmem, firstAt_succ]
      split
      · next hseen => exact (firstAt_cons_of_mem hseen).symm
      · exact Iff.rfl
    by_cases hseen : clause.field ∈ seen
    · rw [if_pos hseen] at hitems
      refine ⟨positions.map (· + 1), hlater, fun i => ?_, ?_⟩
      · cases i with
        | zero => simp [firstAt_zero, hseen]
        | succ i => exact hrest i
      · simp [withoutRepeats_cons_of_mem hseen, hitems]
    · rw [if_neg hseen] at hitems
      refine ⟨0 :: positions.map (· + 1), List.pairwise_cons.2 ⟨by simp, hlater⟩, fun i => ?_, ?_⟩
      · cases i with
        | zero => simp [firstAt_zero, hseen]
        | succ i => exact (List.mem_cons.trans (or_iff_right (Nat.succ_ne_zero i))).trans (hrest i)
      · simp [withoutRepeats_cons_of_notMem hseen, hitems]

theorem withoutRepeats_eq_self (hnodup : (sort.map field).Nodup)
    (hnew : ∀ clause ∈ sort, clause.field ∉ seen) : withoutRepeats seen sort = sort := by
  induction sort generalizing seen with
  | nil => rfl
  | cons clause rest ih =>
    obtain ⟨hfirst, hrest⟩ := List.forall_mem_cons.1 hnew
    obtain ⟨hnot, hnodup⟩ := List.nodup_cons.1 hnodup
    rw [withoutRepeats_cons_of_notMem hfirst]
    refine congrArg (clause :: ·) (ih hnodup fun other hother => ?_)
    refine List.not_mem_cons_of_ne_of_not_mem (fun heq => ?_) (hrest other hother)
    exact hnot (heq ▸ List.mem_map_of_mem hother)

theorem withoutRepeats_eq_nil (hseen : ∀ clause ∈ sort, clause.field ∈ seen) :
    withoutRepeats seen sort = [] := by
  induction sort with
  | nil => rfl
  | cons clause rest ih =>
    obtain ⟨hfirst, hrest⟩ := List.forall_mem_cons.1 hseen
    rw [withoutRepeats_cons_of_mem hfirst, ih hrest]

theorem withoutRepeats_append_of_subset
    (hmore : ∀ clause ∈ more, clause.field ∈ seen ∨ clause.field ∈ sort.map field) :
    withoutRepeats seen (sort ++ more) = withoutRepeats seen sort := by
  induction sort generalizing seen with
  | nil =>
    exact withoutRepeats_eq_nil fun clause hclause =>
      (hmore clause hclause).resolve_right List.not_mem_nil
  | cons clause rest ih =>
    rw [List.cons_append]
    by_cases hseen : clause.field ∈ seen
    · rw [withoutRepeats_cons_of_mem hseen, withoutRepeats_cons_of_mem hseen]
      refine ih fun other hother => ?_
      rcases hmore other hother with hin | hin
      · exact .inl hin
      · rcases List.mem_cons.1 hin with heq | hin
        · exact .inl (heq ▸ hseen)
        · exact .inr hin
    · rw [withoutRepeats_cons_of_notMem hseen, withoutRepeats_cons_of_notMem hseen]
      refine congrArg (clause :: ·) (ih fun other hother => ?_)
      rcases hmore other hother with hin | hin
      · exact .inl (List.mem_cons_of_mem _ hin)
      · rcases List.mem_cons.1 hin with heq | hin
        · exact .inl (heq ▸ List.mem_cons_self)
        · exact .inr hin

theorem mem_fields_completed {engine : Engine} {cursor : Bool} :
    name ∈ (completed sort engine cursor).map field ↔
      name ∈ sort.map field ∨ name ∈ (tieBreakers engine cursor).map field := by
  rw [completed, mem_fields_withoutRepeats, List.map_append, List.mem_append]
  exact and_iff_right (by simp)

theorem completed_completed (sort : List SortClause) (engine : Engine) (cursor : Bool) :
    completed (completed sort engine cursor) engine cursor = completed sort engine cursor := by
  have hthere : ∀ clause ∈ tieBreakers engine cursor,
      clause.field ∈ (completed sort engine cursor).map field := by
    intro clause hclause
    exact mem_fields_completed.2 (.inr (List.mem_map_of_mem hclause))
  calc
    completed (completed sort engine cursor) engine cursor
      = withoutRepeats [] (completed sort engine cursor) :=
        withoutRepeats_append_of_subset fun clause hclause => .inr (hthere clause hclause)
    _ = completed sort engine cursor :=
        withoutRepeats_eq_self (nodup_fields_withoutRepeats [] _) fun _ _ => List.not_mem_nil

theorem documentKey_mem_tieBreakers {engine : Engine} {key : String}
    (hkey : engine.documentKey? = some key) : key ∈ (tieBreakers engine true).map field := by
  cases engine <;> simp_all [Engine.documentKey?, tieBreakers]

/-- **A completed order consists of the first item of every field**, in the order in which the
caller's items and then the tie breakers ask for them: no field comes twice, every field keeps its
first direction, and none is lost. An order for a cursor holds the key of the documents, and
completing an order once more changes nothing. -/
theorem completed_first_items (sort : List SortClause) (engine : Engine) (cursor : Bool) :
    (∃ positions : List Nat, positions.Pairwise (· < ·) ∧
        (∀ i, i ∈ positions ↔ FirstAt [] (sort ++ tieBreakers engine cursor) i) ∧
        (completed sort engine cursor).map some =
          positions.map fun i => (sort ++ tieBreakers engine cursor)[i]?) ∧
      ((completed sort engine cursor).map field).Nodup ∧
      (∀ name, (completed sort engine cursor).find? (·.field = name) =
        (sort ++ tieBreakers engine cursor).find? (·.field = name)) ∧
      (∀ key, cursor = true → engine.documentKey? = some key →
        key ∈ (completed sort engine cursor).map field) ∧
      completed (completed sort engine cursor) engine cursor = completed sort engine cursor := by
  refine ⟨exists_positions [] _, nodup_fields_withoutRepeats [] _, fun name => ?_, ?_,
    completed_completed sort engine cursor⟩
  · exact find?_withoutRepeats List.not_mem_nil
  · rintro key rfl hkey
    exact mem_fields_completed.2 (.inr (documentKey_mem_tieBreakers hkey))

/-- The caller asks for the key of the documents in a direction of his own, and twice for a
field. -/
example : completed [⟨"level", .asc⟩, ⟨"__id", .asc⟩, ⟨"level", .desc⟩] .indexBase true =
    [⟨"level", .asc⟩, ⟨"__id", .asc⟩, ⟨"@timestamp", .desc⟩] := by decide

end SortClause

end ViewCompiler
