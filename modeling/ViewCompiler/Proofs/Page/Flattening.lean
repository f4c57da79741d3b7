import ViewCompiler.Page.Document
import ViewCompiler.Proofs.Field.FieldSet

/-!
# What flattening keeps

A document is flattened by placing the values that its paths lead to in a row, one after another.

* `Row.arrivals`: these values, each with its key.
* `Row.flattenWhere_eq`: **flattening a document is placing its arrivals.**
* `Row.restrict_place`: a choice of keys can be made before or after a value is placed.
* `Row.flatten_some_eq_restrict`: **flattening with some fields is flattening without any and then
  choosing the keys that name one of them.**
* `Row.leafValues`: the scalars and empty objects in a document.
* `Row.overwritten`: those that a row loses while values are placed in it.
* `Row.leafValues_foldl_place`: what a row keeps and what it loses is what arrives.
* `Row.flatten_keeps_leaves_iff`: **nothing is lost exactly if no array and no empty object arrives
  under a key under which a leaf has arrived before.**
-/

namespace ViewCompiler

namespace Row

open KeyMap (Ordered)

/-! ### Arrivals -/

mutual

/-- The values that are placed for a value that is reached under a key. -/
def arrivalsAt (key : String) : Json → List (String × Json)
  | .object [] => [(key, .object [])]
  | .object members => arrivalsUnder key members
  | .array items => if startsNested items then arrivalsIn key items else [(key, .array items)]
  | scalar => [(key, scalar)]

/-- The values that are placed for the members of an object that is reached under a key. -/
def arrivalsUnder (key : String) : List (String × Json) → List (String × Json)
  | [] => []
  | (name, value) :: rest => arrivalsAt (key ++ "." ++ name) value ++ arrivalsUnder key rest

/-- The values that are placed for the items of an array that is reached under a key. -/
def arrivalsIn (key : String) : List Json → List (String × Json)
  | [] => []
  | item :: rest => arrivalsAt key item ++ arrivalsIn key rest

end

/-- The values that are placed for a document, in their order. -/
def arrivals (document : Row) : List (String × Json) :=
  document.flatMap fun entry => arrivalsAt entry.1 entry.2

/-- Place a value under its key: a scalar joins what is there, an array or an empty object takes its
place. -/
def place (keep : String → Bool) (row : Row) (arrival : String × Json) : Row :=
  if arrival.2.isContainer then row.put keep arrival.1 arrival.2
  else row.collect keep arrival.1 arrival.2

mutual

theorem assign_eq (keep : String → Bool) (key : String) (value : Json) (row : Row) :
    assign keep key value row = (arrivalsAt key value).foldl (place keep) row := by
  match value with
  | .object [] => rfl
  | .object (member :: rest) =>
    rw [assign, arrivalsAt]
    · exact assignMembers_eq keep key (member :: rest) row
    · simp
    · simp
  | .array items =>
    rw [assign, arrivalsAt]
    split
    · exact assignItems_eq keep key items row
    · rfl
  | .null | .bool _ | .number _ | .string _ => rfl

theorem assignMembers_eq (keep : String → Bool) (key : String) (members : List (String × Json))
    (row : Row) :
    assignMembers keep key members row = (arrivalsUnder key members).foldl (place keep) row := by
  match members with
  | [] => rfl
  | (name, value) :: rest =>
    rw [assignMembers, arrivalsUnder, List.foldl_append, assign_eq, assignMembers_eq]

theorem assignItems_eq (keep : String → Bool) (key : String) (items : List Json) (row : Row) :
    assignItems keep key items row = (arrivalsIn key items).foldl (place keep) row := by
  match items with
  | [] => rfl
  | item :: rest => rw [assignItems, arrivalsIn, List.foldl_append, assign_eq, assignItems_eq]

end

/-- **Flattening a document is placing its arrivals.** -/
theorem flattenWhere_eq (keep : String → Bool) (document : Row) :
    flattenWhere keep document = (arrivals document).foldl (place keep) [] := by
  unfold flattenWhere arrivals
  -- for any row that is built so far, or the fold would not go through
  generalize ([] : Row) = row
  induction document generalizing row with
  | nil => rfl
  | cons entry rest ih =>
    rw [List.foldl_cons, ih, List.flatMap_cons, List.foldl_append, ← assign_eq]

/-! ### Rows with some of the keys -/

section

variable {row : Row}

theorem ordered_put (h : Ordered row) (keep : String → Bool) (key : String) (value : Json) :
    Ordered (row.put keep key value) := by
  unfold put
  split
  · exact h.insert key value
  · exact h

theorem ordered_place (h : Ordered row) (keep : String → Bool) (arrival : String × Json) :
    Ordered (row.place keep arrival) := by
  unfold place collect
  split
  · exact ordered_put h keep _ _
  · split
    · exact ordered_put h keep _ _
    · exact h.insert _ _
    · exact h.insert _ _

/-- The entries of a row with the keys that are kept. -/
def restrict (keep : String → Bool) (row : Row) : Row := row.filter fun entry => keep entry.1

theorem restrict_put (h : Ordered row) (keep : String → Bool) (key : String) (value : Json) :
    restrict keep (row.put (fun _ => true) key value) = (restrict keep row).put keep key value :=
  KeyMap.filter_insert h keep key value

/-- **A choice of keys can be made before or after a value is placed.**  A key that is not kept is
not in the row, so that a scalar under it meets nothing there. -/
theorem restrict_place (h : Ordered row) (keep : String → Bool) (arrival : String × Json) :
    restrict keep (row.place (fun _ => true) arrival) = (restrict keep row).place keep arrival := by
  obtain ⟨key, value⟩ := arrival
  unfold place
  split
  · exact restrict_put h keep key value
  · unfold collect
    have hget : (restrict keep row).get? key = if keep key then row.get? key else none :=
      KeyMap.get?_filter keep row key
    by_cases hkeep : keep key = true
    · rw [hget, if_pos hkeep]
      have hinsert (new : Json) :
          restrict keep (row.insert key new) = (restrict keep row).insert key new := by
        rw [restrict, KeyMap.filter_insert h, if_pos hkeep]
        rfl
      cases row.get? key with
      | none => exact restrict_put h keep key value
      | some found => cases found <;> exact hinsert _
    · rw [hget, if_neg hkeep]
      have hinsert (new : Json) : restrict keep (row.insert key new) = restrict keep row := by
        rw [restrict, KeyMap.filter_insert h, if_neg hkeep]
        rfl
      have hput : (restrict keep row).put keep key value = restrict keep row := by
        rw [put, if_neg hkeep]
      rw [hput]
      cases row.get? key with
      | none => exact hinsert value
      | some found => cases found <;> exact hinsert _

theorem restrict_foldl_place (h : Ordered row) (keep : String → Bool)
    (arrivals : List (String × Json)) :
    restrict keep (arrivals.foldl (place fun _ => true) row) =
      arrivals.foldl (place keep) (restrict keep row) := by
  induction arrivals generalizing row with
  | nil => rfl
  | cons arrival rest ih =>
    rw [List.foldl_cons, List.foldl_cons, ih (ordered_place h _ arrival), restrict_place h]

/-- **Flattening with some fields** is flattening without any and then choosing the keys that lead
to one of them. In a set with the index of its fields these are the keys that name a field. -/
theorem flatten_some_eq_restrict (document : Row) (fields : FieldSet) :
    flatten document (some fields) = restrict fields.contains (flatten document none) ∧
      (fields.Indexed →
        flatten document (some fields) =
          (flatten document none).filter fun entry => entry.1 ∈ fields.names) := by
  have hcontains : flatten document (some fields) =
      restrict fields.contains (flatten document none) := by
    unfold flatten
    rw [flattenWhere_eq, flattenWhere_eq]
    exact (restrict_foldl_place KeyMap.ordered_nil fields.contains (arrivals document)).symm
  refine ⟨hcontains, fun hindexed => ?_⟩
  rw [hcontains, restrict]
  refine List.filter_congr fun entry _ => ?_
  rw [Bool.eq_iff_iff, hindexed.contains_iff, decide_eq_true_eq]

/-- Two values under the key that is kept, and one under another key. -/
theorem flatten_some_eq_restrict_nested :
    (FieldSet.ofList [Field.ofName "a.b" .keyword]).Indexed ∧
      flatten [("a", .array [.object [("b", .null), ("c", .null)], .object [("b", .bool true)]])]
          (some (FieldSet.ofList [Field.ofName "a.b" .keyword])) =
        [("a.b", .array [.null, .bool true])] := by
  refine ⟨FieldSet.indexed_ofList _, ?_⟩
  rw [(flatten_some_eq_restrict _ _).2 (FieldSet.indexed_ofList _)]
  rfl

end

/-! ### Leaves -/

mutual

/-- The scalars and the empty objects in a value, at every depth. -/
def leafValuesAt : Json → List Json
  | .object [] => [.object []]
  | .object members => leafValues members
  | .array items => leafValuesIn items
  | scalar => [scalar]

/-- The scalars and the empty objects in a document, at every depth. -/
def leafValues : List (String × Json) → List Json
  | [] => []
  | (_, value) :: rest => leafValuesAt value ++ leafValues rest

/-- The scalars and the empty objects in the items of an array. -/
def leafValuesIn : List Json → List Json
  | [] => []
  | item :: rest => leafValuesAt item ++ leafValuesIn rest

end

theorem leafValues_eq_flatMap (document : Row) :
    leafValues document = document.flatMap fun entry => leafValuesAt entry.2 := by
  induction document with
  | nil => rfl
  | cons entry rest ih => rw [List.flatMap_cons, ← ih]; rfl

theorem leafValues_append (first second : Row) :
    leafValues (first ++ second) = leafValues first ++ leafValues second := by
  rw [leafValues_eq_flatMap, List.flatMap_append, ← leafValues_eq_flatMap, ← leafValues_eq_flatMap]

theorem leafValues_perm {first second : Row} (h : first.Perm second) :
    (leafValues first).Perm (leafValues second) := by
  rw [leafValues_eq_flatMap, leafValues_eq_flatMap]
  exact h.flatMap_right _

theorem leafValuesIn_append (first second : List Json) :
    leafValuesIn (first ++ second) = leafValuesIn first ++ leafValuesIn second := by
  induction first with
  | nil => rfl
  | cons item rest ih => rw [List.cons_append, leafValuesIn, ih, leafValuesIn, List.append_assoc]

theorem leafValuesAt_scalar {value : Json} (h : value.isContainer = false) :
    leafValuesAt value = [value] := by
  cases value with
  | array | object => cases h
  | _ => rfl

mutual

theorem leafValues_arrivalsAt (key : String) (value : Json) :
    leafValues (arrivalsAt key value) = leafValuesAt value := by
  match value with
  | .object [] => rfl
  | .object (member :: rest) =>
    rw [arrivalsAt, leafValuesAt]
    · exact leafValues_arrivalsUnder key (member :: rest)
    · simp
    · simp
  | .array items =>
    rw [arrivalsAt]
    split
    · exact leafValues_arrivalsIn key items
    · exact List.append_nil _
  | .null | .bool _ | .number _ | .string _ => rfl

theorem leafValues_arrivalsUnder (key : String) (members : List (String × Json)) :
    leafValues (arrivalsUnder key members) = leafValues members := by
  match members with
  | [] => rfl
  | (name, value) :: rest =>
    rw [arrivalsUnder, leafValues_append, leafValues_arrivalsAt, leafValues_arrivalsUnder,
      leafValues]

theorem leafValues_arrivalsIn (key : String) (items : List Json) :
    leafValues (arrivalsIn key items) = leafValuesIn items := by
  match items with
  | [] => rfl
  | item :: rest =>
    rw [arrivalsIn, leafValues_append, leafValues_arrivalsAt, leafValues_arrivalsIn, leafValuesIn]

end

theorem leafValues_arrivals (document : Row) :
    leafValues (arrivals document) = leafValues document := by
  unfold arrivals
  induction document with
  | nil => rfl
  | cons entry rest ih =>
    rw [List.flatMap_cons, leafValues_append, ih, leafValues_arrivalsAt]
    rfl

/-! ### What is overwritten -/

/-- The leaves of what stands under a key. -/
def leavesUnder (row : Row) (key : String) : List Json := (row.get? key).elim [] leafValuesAt

/-- The leaves of a row that are lost when a value is placed: an array or an empty object takes the
place of what stands under its key. -/
def replaced (row : Row) (arrival : String × Json) : List Json :=
  if arrival.2.isContainer then row.leavesUnder arrival.1 else []

/-- The leaves that are lost while values are placed. -/
def overwritten (row : Row) : List (String × Json) → List Json
  | [] => []
  | arrival :: rest =>
    row.replaced arrival ++ (row.place (fun _ => true) arrival).overwritten rest

section

variable {row : Row}

/-- An insertion adds the leaves of its value and takes away those that were under its key. -/
theorem leafValues_insert (h : Ordered row) (key : String) (value : Json) :
    (leafValues (row.insert key value) ++ row.leavesUnder key).Perm
      (leafValues row ++ leafValuesAt value) := by
  unfold leavesUnder
  cases hget : row.get? key with
  | none =>
    have hperm := leafValues_perm (KeyMap.perm_insert_of_get?_eq_none hget value)
    rw [leafValues] at hperm
    rw [Option.elim_none, List.append_nil]
    exact hperm.trans List.perm_append_comm
  | some old =>
    obtain ⟨before, after, hrow, hinsert⟩ := KeyMap.exists_insert_eq h hget value
    rw [Option.elim_some, hinsert, hrow, leafValues_append, leafValues_append, leafValues,
      leafValues]
    -- the two values have changed places around the entries behind the key
    classical
    refine List.perm_iff_count.2 fun leaf => ?_
    simp only [List.count_append]
    omega

theorem leavesUnder_insert (row : Row) (key other : String) (value : Json) :
    leavesUnder (row.insert key value) other =
      if key = other then leafValuesAt value else row.leavesUnder other := by
  unfold leavesUnder
  rw [KeyMap.get?_insert]
  split <;> rfl

/-- A value is placed by one insertion: an array or an empty object as it is, a scalar behind the
leaves that are under its key. -/
theorem exists_place_eq (row : Row) (arrival : String × Json) :
    ∃ value, row.place (fun _ => true) arrival = row.insert arrival.1 value ∧
      leafValuesAt value =
        if arrival.2.isContainer then leafValuesAt arrival.2
        else row.leavesUnder arrival.1 ++ leafValuesAt arrival.2 := by
  obtain ⟨key, value⟩ := arrival
  unfold place
  split
  · exact ⟨value, rfl, rfl⟩
  next hscalar =>
  rw [leafValuesAt_scalar (Bool.eq_false_iff.2 hscalar)]
  unfold collect leavesUnder
  cases row.get? key with
  | none => exact ⟨value, rfl, leafValuesAt_scalar (Bool.eq_false_iff.2 hscalar)⟩
  | some first =>
    have hscalars : leafValuesIn [value] = [value] := by
      rw [leafValuesIn, leafValuesIn, leafValuesAt_scalar (Bool.eq_false_iff.2 hscalar),
        List.append_nil]
    cases first with
    | array found =>
      refine ⟨.array (found ++ [value]), rfl, ?_⟩
      rw [leafValuesAt, leafValuesIn_append, hscalars, Option.elim_some, leafValuesAt]
    | null | bool _ | number _ | string _ | object _ =>
      refine ⟨.array [_, value], rfl, ?_⟩
      rw [leafValuesAt, leafValuesIn, hscalars, Option.elim_some]

/-- What a row keeps and what it loses when a value is placed is what it had and what arrives. -/
theorem leafValues_place (h : Ordered row) (arrival : String × Json) :
    (leafValues (row.place (fun _ => true) arrival) ++ row.replaced arrival).Perm
      (leafValues row ++ leafValuesAt arrival.2) := by
  obtain ⟨value, hplace, hvalue⟩ := exists_place_eq row arrival
  have hinsert := leafValues_insert h arrival.1 value
  rw [hplace]
  unfold replaced
  split at hvalue
  · next hcontainer => rwa [if_pos hcontainer, ← hvalue]
  · next hscalar =>
    rw [hvalue] at hinsert
    rw [if_neg hscalar, List.append_nil]
    -- the leaves under the key stand on both sides
    classical
    refine List.perm_iff_count.2 fun leaf => ?_
    have hcount := hinsert.count_eq leaf
    simp only [List.count_append] at hcount ⊢
    omega

/-- **What a row keeps and what it loses** while values are placed is what it had and what arrives. -/
theorem leafValues_foldl_place (h : Ordered row) (arrivals : List (String × Json)) :
    (leafValues (arrivals.foldl (place fun _ => true) row) ++ row.overwritten arrivals).Perm
      (leafValues row ++ leafValues arrivals) := by
  induction arrivals generalizing row with
  | nil => exact List.Perm.refl _
  | cons arrival rest ih =>
    have hstep := leafValues_place h arrival
    have hrest := ih (ordered_place h (fun _ => true) arrival)
    rw [List.foldl_cons, overwritten, leafValues]
    classical
    refine List.perm_iff_count.2 fun leaf => ?_
    have hstep' := hstep.count_eq leaf
    have hrest' := hrest.count_eq leaf
    simp only [List.count_append] at hstep' hrest' ⊢
    omega

/-- If nothing is lost when a value is placed, there is a leaf under a key afterwards exactly if
there was one before or one has arrived. -/
theorem leavesUnder_place_eq_nil_iff {arrival : String × Json} (h : row.replaced arrival = [])
    (key : String) :
    (row.place (fun _ => true) arrival).leavesUnder key = [] ↔
      row.leavesUnder key = [] ∧ (arrival.1 = key → leafValuesAt arrival.2 = []) := by
  obtain ⟨value, hplace, hvalue⟩ := exists_place_eq row arrival
  rw [hplace, leavesUnder_insert]
  by_cases hkey : arrival.1 = key
  · subst hkey
    rw [if_pos rfl, hvalue]
    unfold replaced at h
    split at h
    · next hcontainer => simp [h, hcontainer]
    · next hscalar => simp [hscalar]
  · simp [hkey]

/-- **Nothing is lost while values are placed** exactly if no array and no empty object arrives
under a key with leaves, whether they were in the row or have arrived before. -/
theorem overwritten_eq_nil_iff (row : Row) (arrivals : List (String × Json)) :
    row.overwritten arrivals = [] ↔
      (∀ arrival ∈ arrivals, arrival.2.isContainer = true → row.leavesUnder arrival.1 = []) ∧
        arrivals.Pairwise fun earlier later => earlier.1 = later.1 → later.2.isContainer = true →
          leafValuesAt earlier.2 = [] := by
  induction arrivals generalizing row with
  | nil => simp [overwritten]
  | cons arrival rest ih =>
    have hreplaced : row.replaced arrival = [] ↔
        (arrival.2.isContainer = true → row.leavesUnder arrival.1 = []) := by
      unfold replaced
      split
      · next hcontainer => simp [hcontainer]
      · next hscalar => simp [hscalar]
    rw [overwritten, List.append_eq_nil_iff, ih, List.pairwise_cons, List.forall_mem_cons,
      hreplaced]
    constructor
    · rintro ⟨hfirst, hrest, hpairs⟩
      have hunder := fun later hlater hcontainer =>
        (leavesUnder_place_eq_nil_iff (hreplaced.2 hfirst) _).1 (hrest later hlater hcontainer)
      exact ⟨⟨hfirst, fun later hlater hcontainer => (hunder later hlater hcontainer).1⟩,
        fun later hlater hkey hcontainer => (hunder later hlater hcontainer).2 hkey, hpairs⟩
    · rintro ⟨⟨hfirst, hrest⟩, hlater, hpairs⟩
      refine ⟨hfirst, fun later hmem hcontainer => ?_, hpairs⟩
      exact (leavesUnder_place_eq_nil_iff (hreplaced.2 hfirst) _).2
        ⟨hrest later hmem hcontainer, fun hkey => hlater later hmem hkey hcontainer⟩

end

/-- **Flattening keeps every leaf, as often as it occurs, or overwrites it.**  Nothing is
overwritten exactly if no array and no empty object arrives under a key under which a leaf has
arrived before. -/
theorem flatten_keeps_leaves_iff (document : Row) :
    (leafValues (flatten document none) ++ overwritten [] (arrivals document)).Perm
        (leafValues document) ∧
      ((leafValues (flatten document none)).Perm (leafValues document) ↔
        (arrivals document).Pairwise fun earlier later =>
          earlier.1 = later.1 → later.2.isContainer = true → leafValuesAt earlier.2 = []) := by
  have hkept : (leafValues (flatten document none) ++ overwritten [] (arrivals document)).Perm
      (leafValues document) := by
    have hplaced := leafValues_foldl_place KeyMap.ordered_nil (arrivals document)
    rw [← flattenWhere_eq, leafValues_arrivals] at hplaced
    exact hplaced
  have hnone : overwritten [] (arrivals document) = [] ↔
      (arrivals document).Pairwise fun earlier later =>
        earlier.1 = later.1 → later.2.isContainer = true → leafValuesAt earlier.2 = [] := by
    rw [overwritten_eq_nil_iff]
    exact and_iff_right fun _ _ _ => rfl
  refine ⟨hkept, ?_⟩
  rw [← hnone]
  constructor
  · intro hperm
    have hlength := hkept.length_eq
    rw [List.length_append, hperm.length_eq] at hlength
    exact List.eq_nil_of_length_eq_zero (by omega)
  · intro hlost
    rwa [hlost, List.append_nil] at hkept

/-- The values of the second object take the place of those of the first one. -/
example :
    flatten [("a", .array [.object [("k", .null)], .object [("k", .array [.bool false])]])] none =
      [("a.k", .array [.bool false])] := rfl

end Row

end ViewCompiler
