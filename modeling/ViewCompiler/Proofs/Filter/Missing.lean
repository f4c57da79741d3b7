import ViewCompiler.Proofs.Field.FieldSet
import ViewCompiler.Proofs.Filter.Legality
import ViewCompiler.Readers.Standard
import ViewCompiler.Service.Answer

/-!
# Missing fields and legal filters

Two recursions decide which nodes of a filter name a field: the search for a missing field takes the
name of every node, while the check of a filter looks up those of its leaves.

* `Filter.names`: the names at all nodes; `Filter.referenced` lists them (`mem_referenced`).
* `Filter.idleNames`: the names that the check never looks up, those of nodes that join others and
  of nodes below a leaf.
* `Filter.known_names_iff`: of a legal filter only idle names may be missing.
* `Filter.names_of_fieldNotFound`: the field that the check does not find is missing.
* `Filter.missing_agrees_iff`: **the search for a missing field agrees with the check exactly as far
  as the idle names are known.**
-/

namespace ViewCompiler

namespace Filter

variable {fields : FieldSet} {max : Nat} {filter : Filter} {operator : Operator} {name : String}

/-! ### Trees -/

/-- What holds of a filter whenever it holds of its children holds of every filter. -/
@[elab_as_elim]
theorem of_children {motive : Filter → Prop}
    (node : ∀ (field operation : String) (children : List Filter) (valueFrom : String)
      (value : Option Json), (∀ child ∈ children, motive child) →
      motive ⟨field, operation, children, valueFrom, value⟩)
    (filter : Filter) : motive filter :=
  @Filter.rec motive (fun children => ∀ child ∈ children, motive child) node
    (fun _ hmem => absurd hmem List.not_mem_nil)
    (fun _ _ hfirst hrest => List.forall_mem_cons.2 ⟨hfirst, hrest⟩) filter

mutual

/-- The names at the nodes of a filter. -/
def names : Filter → List String
  | ⟨field, _, children, _, _⟩ => field :: namesOf children

/-- The names at the nodes of the filters. -/
def namesOf : List Filter → List String
  | [] => []
  | filter :: rest => names filter ++ namesOf rest

end

mutual

/-- The names at the nodes of a filter that no leaf of it tests: those of nodes that join others,
and of nodes below a leaf. -/
def idleNames : Filter → List String
  | ⟨field, operation, children, _, _⟩ =>
    if (Operator.ofName? operation).any Operator.isLogical then field :: idleNamesOf children
    else namesOf children

/-- The idle names of the filters. -/
def idleNamesOf : List Filter → List String
  | [] => []
  | filter :: rest => idleNames filter ++ idleNamesOf rest

end

theorem namesOf_eq (filters : List Filter) : namesOf filters = filters.flatMap names := by
  induction filters with
  | nil => rfl
  | cons filter rest ih => rw [namesOf, ih, List.flatMap_cons]

theorem idleNamesOf_eq (filters : List Filter) :
    idleNamesOf filters = filters.flatMap idleNames := by
  induction filters with
  | nil => rfl
  | cons filter rest ih => rw [idleNamesOf, ih, List.flatMap_cons]

/-! ### The search for a missing field -/

theorem mem_addName {found : List String} {other : String} :
    name ∈ addName found other ↔ name ∈ found ∨ name = other := by
  rw [addName]
  split
  · next hmem =>
    exact ⟨.inl, fun h => h.elim id fun heq => heq ▸ List.contains_iff_mem.1 hmem⟩
  · rw [List.mem_append, List.mem_singleton]

theorem mem_addAllReferenced {children : List Filter}
    (h : ∀ child ∈ children, ∀ found : List String,
      name ∈ addReferenced found child ↔ name ∈ found ∨ name ≠ "" ∧ name ∈ child.names)
    (found : List String) :
    name ∈ addAllReferenced found children ↔
      name ∈ found ∨ name ≠ "" ∧ name ∈ namesOf children := by
  induction children generalizing found with
  | nil => simp [addAllReferenced, namesOf]
  | cons child rest ih =>
    obtain ⟨hchild, hrest⟩ := List.forall_mem_cons.1 h
    rw [addAllReferenced, ih hrest, hchild, namesOf, List.mem_append, and_or_left, or_assoc]

theorem mem_addReferenced (filter : Filter) (found : List String) :
    name ∈ addReferenced found filter ↔ name ∈ found ∨ name ≠ "" ∧ name ∈ filter.names := by
  induction filter using of_children generalizing found with
  | node field operation children valueFrom value ih =>
    rw [addReferenced, mem_addAllReferenced ih, names, List.mem_cons, and_or_left, ← or_assoc]
    refine or_congr_left ?_
    split
    · next hempty => exact (or_iff_left fun hname => hname.1 (hname.2.trans hempty)).symm
    · next hnamed =>
      rw [mem_addName]
      exact or_congr_right (iff_and_self.2 fun hname => hname.trans_ne hnamed)

theorem mem_referenced : name ∈ filter.referenced ↔ name ≠ "" ∧ name ∈ filter.names := by
  rw [referenced, mem_addReferenced]
  exact or_iff_right List.not_mem_nil

/-- A name that is not missing: there is none, it stands for all fields, or the set has it. -/
def Known (fields : FieldSet) (name : String) : Prop :=
  name = "" ∨ name = allFields ∨ fields.contains name = true

theorem missingField?_eq_none_iff :
    filter.missingField? fields = none ↔ ∀ name ∈ filter.names, Known fields name := by
  rw [missingField?, List.find?_eq_none]
  refine forall_congr' fun name => ?_
  rw [mem_referenced, Bool.and_eq_true, decide_eq_true_eq, Bool.not_eq_true', Known,
    ← Bool.not_eq_true]
  tauto

/-! ### The check of a filter -/

theorem known_of_checkField (h : checkField fields filter operator = .ok ()) :
    Known fields filter.field := by
  rw [checkField] at h
  split at h
  · next hall => exact .inr (.inl hall)
  · split at h
    · cases h
    · next field hfield => exact .inr (.inr (FieldSet.contains_of_get? hfield))

/-- **Of a legal filter only idle names may be missing.** -/
theorem known_names_iff [Readers] (h : checkTree fields max filter = .ok ()) :
    (∀ name ∈ filter.names, Known fields name) ↔
      ∀ name ∈ filter.idleNames, Known fields name := by
  induction filter using of_children with
  | node field operation children valueFrom value ih =>
    rw [checkTree] at h
    obtain ⟨-, h⟩ := Result.bind_unit_eq_ok.1 h
    obtain ⟨-, h⟩ := Result.bind_unit_eq_ok.1 h
    rw [names, idleNames]
    cases hoperator : Operator.ofName? operation with
    | none => simp [hoperator] at h
    | some operator =>
      simp only [hoperator] at h
      rw [Option.any_some]
      split at h
      · next hlogical =>
        obtain ⟨-, h⟩ := Result.bind_unit_eq_ok.1 h
        have hchildren := checkTrees_eq_ok.1 h
        rw [if_pos hlogical, List.forall_mem_cons, List.forall_mem_cons]
        rw [namesOf_eq, idleNamesOf_eq, List.forall_mem_flatMap, List.forall_mem_flatMap]
        exact and_congr_right fun _ =>
          forall₂_congr fun child hchild => ih child hchild (hchildren child hchild)
      · next hleaf =>
        obtain ⟨-, h⟩ := Result.bind_unit_eq_ok.1 h
        obtain ⟨-, h⟩ := Result.bind_unit_eq_ok.1 h
        rw [if_neg hleaf, List.forall_mem_cons]
        exact and_iff_right (known_of_checkField h)

theorem require_eq_error {condition : Bool} {error cause : FilterError} :
    require condition error = .error cause ↔ condition = false ∧ error = cause := by
  cases condition <;> simp [require]

theorem checkValue_ne_fieldNotFound [Readers] :
    checkValue filter operator ≠ .error (.fieldNotFound name) := by
  intro h
  rw [checkValue] at h
  split at h
  · cases h
  rcases Result.bind_eq_error.1 h with h | ⟨-, -, h⟩
  · cases (require_eq_error.1 h).2
  rcases Result.bind_eq_error.1 h with h | ⟨-, -, h⟩
  · rw [checkSingle] at h
    rcases Result.bind_eq_error.1 h with h | ⟨-, -, h⟩
    · cases (require_eq_error.1 h).2
    · cases (require_eq_error.1 h).2
  rcases Result.bind_eq_error.1 h with h | ⟨-, -, h⟩
  · rw [checkPattern] at h
    split at h
    · split at h
      · cases (require_eq_error.1 h).2
      · cases h
    · cases h
  · unfold checkList at h
    cases operator with
    | isIn | notIn | range | outRange | between | before => cases (require_eq_error.1 h).2
    | _ => cases h

/-- A field that a leaf does not find has a name of its own, under which there is no field. -/
theorem checkField_eq_fieldNotFound
    (h : checkField fields filter operator = .error (.fieldNotFound name)) :
    name = filter.field ∧ name ≠ allFields ∧ fields.get? name = none := by
  rw [checkField] at h
  split at h
  · cases (require_eq_error.1 h).2
  · next hall =>
    split at h
    · next hnone =>
      obtain rfl := FilterError.fieldNotFound.inj (Except.error.inj h)
      exact ⟨rfl, hall, hnone⟩
    · rcases Result.bind_eq_error.1 h with h | ⟨-, -, h⟩
      · cases (require_eq_error.1 h).2
      · cases (require_eq_error.1 h).2

theorem checkTrees_eq_error [Readers] {filters : List Filter} {error : FilterError}
    (h : checkTrees fields max filters = .error error) :
    ∃ filter ∈ filters, checkTree fields max filter = .error error := by
  induction filters with
  | nil => cases h
  | cons filter rest ih =>
    rcases Result.bind_eq_error.1 h with h | ⟨-, -, h⟩
    · exact ⟨filter, List.mem_cons_self, h⟩
    · obtain ⟨other, hother, hcheck⟩ := ih h
      exact ⟨other, List.mem_cons_of_mem _ hother, hcheck⟩

/-- **The field that the check does not find is missing.** -/
theorem names_of_fieldNotFound [Readers]
    (h : checkTree fields max filter = .error (.fieldNotFound name)) :
    name ∈ filter.names ∧ name ≠ "" ∧ name ≠ allFields ∧ fields.get? name = none := by
  induction filter using of_children with
  | node field operation children valueFrom value ih =>
    rw [checkTree] at h
    rw [names, List.mem_cons]
    rcases Result.bind_eq_error.1 h with h | ⟨-, -, h⟩
    · cases (require_eq_error.1 h).2
    rcases Result.bind_eq_error.1 h with h | ⟨-, -, h⟩
    · cases (require_eq_error.1 h).2
    cases hoperator : Operator.ofName? operation with
    | none =>
      rw [hoperator] at h
      cases h
    | some operator =>
      simp only [hoperator] at h
      split at h
      · rcases Result.bind_eq_error.1 h with h | ⟨-, -, h⟩
        · cases (require_eq_error.1 h).2
        obtain ⟨child, hchild, hcheck⟩ := checkTrees_eq_error h
        obtain ⟨hname, hrest⟩ := ih child hchild hcheck
        exact ⟨.inr (namesOf_eq children ▸ List.mem_flatMap.2 ⟨child, hchild, hname⟩), hrest⟩
      · rcases Result.bind_eq_error.1 h with h | ⟨_, hnamed, h⟩
        · cases (require_eq_error.1 h).2
        rcases Result.bind_eq_error.1 h with h | ⟨-, -, h⟩
        · exact absurd h checkValue_ne_fieldNotFound
        obtain ⟨rfl, hall, hnone⟩ := checkField_eq_fieldNotFound h
        exact ⟨.inl rfl, by simpa using require_eq_ok.1 hnamed, hall, hnone⟩

/-! ### What restricts nothing -/

theorem exists_of_isEmpty (h : filter.isEmpty = true) :
    ∃ valueFrom, filter = { valueFrom } := by
  obtain ⟨field, operation, children, valueFrom, value⟩ := filter
  simp only [isEmpty, Bool.and_eq_true, decide_eq_true_eq, List.isEmpty_iff,
    Option.isNone_iff_eq_none] at h
  obtain ⟨⟨⟨rfl, rfl⟩, rfl⟩, rfl⟩ := h
  exact ⟨valueFrom, rfl⟩

/-- Of a filter that passes its check only idle names may be missing. -/
theorem missingField?_of_check [Readers] (h : filter.check fields max = .ok ()) :
    filter.missingField? fields = none ↔ ∀ name ∈ filter.idleNames, Known fields name := by
  rw [missingField?_eq_none_iff]
  rw [check] at h
  split at h
  · next hempty =>
    obtain ⟨valueFrom, rfl⟩ := exists_of_isEmpty hempty
    refine iff_of_true (fun name hname => ?_) fun name hname => ?_
    · exact .inl (List.mem_singleton.1 hname)
    · exact absurd hname List.not_mem_nil
  · exact known_names_iff h

end Filter

theorem Query.checkFilter_of_legal [Readers] {query : Query} {settings : QuerySettings}
    {fields : FieldSet} {filter : Filter} (hfilter : query.filter = some filter)
    (h : filter.check fields settings.maxChildren = .ok ()) :
    query.checkFilter settings fields = .ok true ↔ filter.missingField? fields = none := by
  rw [checkFilter, hfilter]
  cases hempty : filter.isEmpty with
  | true =>
    obtain ⟨valueFrom, rfl⟩ := Filter.exists_of_isEmpty hempty
    exact iff_of_true rfl rfl
  | false =>
    rw [Filter.nonEmpty?_eq_some.2 ⟨rfl, hempty⟩]
    cases hmissing : filter.missingField? fields with
    | none => simp [hmissing, h, Except.mapError, Except.map]
    | some name =>
      simp only [hmissing]
      split <;> simp

namespace Filter

/-- **The search for a missing field agrees with the check exactly as far as the idle names are
known.** A legal filter passes the search, and so does the query with this filter, exactly if none
of the names is missing that stand at joining nodes or below leaves; and what passes the search does
not fail because a field is not found. -/
theorem missing_agrees_iff [Readers] (fields : FieldSet) (hfields : fields.Leads)
    (filter : Filter) :
    (∀ max, filter.check fields max = .ok () →
      (filter.missingField? fields = none ↔ ∀ name ∈ filter.idleNames, Known fields name)) ∧
    (∀ (settings : QuerySettings) (query : Query), query.filter = some filter →
      filter.check fields settings.maxChildren = .ok () →
      (query.checkFilter settings fields = .ok true ↔
        ∀ name ∈ filter.idleNames, Known fields name)) ∧
    (filter.missingField? fields = none →
      ∀ max name, filter.check fields max ≠ .error (.fieldNotFound name)) := by
  refine ⟨fun max h => missingField?_of_check h, fun settings query hfilter h => ?_,
    fun hmissing max name h => ?_⟩
  · rw [Query.checkFilter_of_legal hfilter h, missingField?_of_check h]
  · rw [check] at h
    split at h
    · cases h
    · obtain ⟨hname, hnamed, hall, hnone⟩ := names_of_fieldNotFound h
      rcases missingField?_eq_none_iff.1 hmissing name hname with rfl | rfl | hcontains
      · exact hnamed rfl
      · exact hall rfl
      · obtain ⟨field, hfield⟩ := hfields.exists_get? hcontains
        exact Option.some_ne_none field (hfield.symm.trans hnone)

/-- The field of a small set. -/
def statusFields : FieldSet := .ofList [{ name := "status", type := .long }]

/-- A join with a name of its own. -/
def ofNote : Filter :=
  { field := "note", operation := "and", children := [leaf "status" "==" (.int 1)] }

/-- A legal filter does not pass because the node that joins its leaf has a name of its own; the
leaf alone passes, and its field is found. -/
theorem missing_agrees_iff_note :
    statusFields.Leads ∧ ofNote.check statusFields 10 = .ok () ∧
      ofNote.missingField? statusFields ≠ none ∧
      Query.checkFilter { filter := some ofNote } {} statusFields ≠ .ok true ∧
      (leaf "status" "==" (.int 1)).check statusFields 0 ≠ .error (.fieldNotFound "status") := by
  have hleads : statusFields.Leads := FieldSet.leads_ofList _
  have hmissing : ¬∀ name ∈ ofNote.idleNames, Known statusFields name := by
    intro hknown
    rcases hknown "note" (by decide +kernel) with h | h | h <;> exact absurd h (by decide +kernel)
  refine ⟨hleads, rfl, fun hnone => hmissing ?_, fun hpasses => hmissing ?_, ?_⟩
  · exact ((missing_agrees_iff statusFields hleads ofNote).1 10 rfl).1 hnone
  · exact ((missing_agrees_iff statusFields hleads ofNote).2.1 {} { filter := some ofNote } rfl
      rfl).1 hpasses
  · exact (missing_agrees_iff statusFields hleads (leaf "status" "==" (.int 1))).2.2
      (by decide +kernel) 0 "status"

end Filter

end ViewCompiler
