import ViewCompiler.Proofs.Filter.Meaning

/-!
# Clauses over atoms

The clause of a leaf may itself be a `bool` clause, as for `not_eq` or `out_range`. Here a clause is
read as a tree of `bool` clauses over atoms: where the atoms stand and what their truth values are
is given, and an atom is not taken apart.

* `Clause.Means`: the clause, with these atoms in this order, has a truth value.
* `Clause.NeedsAtom`: a clause that cannot be read without atoms.
* `Clause.needsAtom_ofComparison`: the clause of a comparison is such a clause.
* `Clause.eq_of_means_atom`: **such a clause is read as an atom, if it is the next one**.
* `Clause.Joins`: a clause that joins the clauses of a list, as those of `and` and `or` do.
* `Clause.Joins.eq_of_means`: it is read by the clauses of its list only.
-/

namespace ViewCompiler

namespace Clause

mutual

/-- The clause can be read as a clause over these atoms, from the left to the right, and with this
value. -/
inductive Means : List (Json × Bool) → Json → Bool → Prop
  | atom (clause : Json) (value : Bool) : Means [(clause, value)] clause value
  | bool {members : KeyMap Json} {before between behind : List (Json × Bool)}
    {all none some : List Bool}
    (hall : MeanAll before (listed members "filter" ++ listed members "must") all)
    (hnone : MeanAll between (listed members "must_not") none)
    (hsome : MeanAll behind (listed members "should") some) :
    Means (before ++ between ++ behind) (single "bool" (.object members))
      (verdict (minimum members) all none some)

/-- The same for the clauses of a list. -/
inductive MeanAll : List (Json × Bool) → List Json → List Bool → Prop
  | nil : MeanAll [] [] []
  | cons {found others : List (Json × Bool)} {clause : Json} {rest : List Json} {value : Bool}
    {values : List Bool} (first : Means found clause value) (more : MeanAll others rest values) :
    MeanAll (found ++ others) (clause :: rest) (value :: values)

end

/-! ### Atoms stand inside -/

theorem sizeOf_listed {members : KeyMap Json} {name : String} {clause : Json}
    (h : clause ∈ listed members name) : sizeOf clause < sizeOf (Json.object members) := by
  rw [listed] at h
  cases hget : members.get? name with
  | none => simp [hget] at h
  | some value =>
    cases value with
    | array items =>
      have hitem : clause ∈ items := by simpa [hget, Json.items?] using h
      have hsize := List.sizeOf_lt_of_mem hitem
      have hmember := List.sizeOf_lt_of_mem (KeyMap.mem_of_get? hget)
      simp only [Prod.mk.sizeOf_spec, Json.array.sizeOf_spec, Json.object.sizeOf_spec] at hmember ⊢
      omega
    | _ => simp [hget, Json.items?] at h

theorem sizeOf_single (key : String) (value : Json) : sizeOf value < sizeOf (single key value) := by
  simp only [single, Json.object.sizeOf_spec, List.cons.sizeOf_spec, Prod.mk.sizeOf_spec]
  omega

theorem sizeOf_lt_bool {members : KeyMap Json} {before between behind : List (Json × Bool)}
    (hbefore : ∀ atom ∈ before, ∃ clause ∈ listed members "filter" ++ listed members "must",
      sizeOf atom.1 ≤ sizeOf clause)
    (hbetween : ∀ atom ∈ between, ∃ clause ∈ listed members "must_not",
      sizeOf atom.1 ≤ sizeOf clause)
    (hbehind : ∀ atom ∈ behind, ∃ clause ∈ listed members "should",
      sizeOf atom.1 ≤ sizeOf clause)
    {atom : Json × Bool} (hatom : atom ∈ before ++ between ++ behind) :
    sizeOf atom.1 < sizeOf (single "bool" (.object members)) := by
  have hinner : ∃ name, ∃ clause ∈ listed members name, sizeOf atom.1 ≤ sizeOf clause := by
    rcases List.mem_append.1 hatom with hatom | hatom
    · rcases List.mem_append.1 hatom with hatom | hatom
      · obtain ⟨clause, hclause, hle⟩ := hbefore atom hatom
        rcases List.mem_append.1 hclause with hclause | hclause
        · exact ⟨_, clause, hclause, hle⟩
        · exact ⟨_, clause, hclause, hle⟩
      · exact ⟨_, hbetween atom hatom⟩
    · exact ⟨_, hbehind atom hatom⟩
  obtain ⟨name, clause, hclause, hle⟩ := hinner
  have hlist := sizeOf_listed hclause
  have hbool := sizeOf_single "bool" (.object members)
  omega

mutual

theorem sizeOf_atom_le {found : List (Json × Bool)} {clause : Json} {value : Bool}
    (h : Means found clause value) {atom : Json × Bool} (hatom : atom ∈ found) :
    sizeOf atom.1 ≤ sizeOf clause := by
  match found, clause, value, h with
  | _, _, _, .atom clause value =>
    obtain rfl := List.mem_singleton.1 hatom
    exact Nat.le_refl _
  | _, _, _, .bool hall hnone hsome =>
    exact Nat.le_of_lt (sizeOf_lt_bool (fun _ => sizeOf_atom_le_of_meanAll hall)
      (fun _ => sizeOf_atom_le_of_meanAll hnone) (fun _ => sizeOf_atom_le_of_meanAll hsome) hatom)

theorem sizeOf_atom_le_of_meanAll {found : List (Json × Bool)} {clauses : List Json}
    {values : List Bool} (h : MeanAll found clauses values) {atom : Json × Bool}
    (hatom : atom ∈ found) : ∃ clause ∈ clauses, sizeOf atom.1 ≤ sizeOf clause := by
  match found, clauses, values, h with
  | _, _, _, .nil => exact absurd hatom List.not_mem_nil
  | _, clause :: _, _, .cons first more =>
    rcases List.mem_append.1 hatom with hatom | hatom
    · exact ⟨clause, List.mem_cons_self, sizeOf_atom_le first hatom⟩
    · obtain ⟨inner, hinner, hle⟩ := sizeOf_atom_le_of_meanAll more hatom
      exact ⟨inner, List.mem_cons_of_mem _ hinner, hle⟩

end

/-- A clause is an atom itself, or a `bool` clause that is bigger than the atoms in it. -/
theorem Means.cases_size {found : List (Json × Bool)} {clause : Json} {value : Bool}
    (h : Means found clause value) :
    found = [(clause, value)] ∨ ∀ atom ∈ found, sizeOf atom.1 < sizeOf clause := by
  cases h with
  | atom => exact .inl rfl
  | bool hall hnone hsome =>
    exact .inr fun atom hatom => sizeOf_lt_bool (fun _ => sizeOf_atom_le_of_meanAll hall)
      (fun _ => sizeOf_atom_le_of_meanAll hnone) (fun _ => sizeOf_atom_le_of_meanAll hsome) hatom

/-! ### Clauses that are not read without atoms -/

/-- The clause cannot be read without atoms. -/
def NeedsAtom (clause : Json) : Prop := ∀ value, ¬Means [] clause value

/-- **A clause that needs atoms is read as an atom, if it is the next one.** -/
theorem eq_of_means_atom {clause : Json} (hneeds : NeedsAtom clause)
    {found more others : List (Json × Bool)} {value truth : Bool} (h : Means found clause value)
    (hfound : found ++ more = (clause, truth) :: others) :
    found = [(clause, truth)] ∧ value = truth := by
  cases found with
  | nil => exact absurd h (hneeds value)
  | cons atom rest =>
    obtain ⟨rfl, -⟩ := List.cons.inj hfound
    rcases h.cases_size with hatom | hsmaller
    · obtain ⟨hpair, rfl⟩ := List.cons.inj hatom
      obtain rfl : truth = value := congrArg Prod.snd hpair
      exact ⟨rfl, rfl⟩
    · exact absurd (hsmaller _ List.mem_cons_self) (Nat.lt_irrefl _)

theorem needsAtom_single {key : String} (hkey : key ≠ "bool") (inner : Json) :
    NeedsAtom (single key inner) := by
  intro value h
  generalize hfound : ([] : List (Json × Bool)) = found, hclause : single key inner = clause at h
  cases h with
  | atom => cases hfound
  | bool =>
    simp only [single, Json.object.injEq, List.cons.injEq, Prod.mk.injEq] at hclause
    exact hkey hclause.1.1

theorem exists_means_of_meanAll {clauses : List Json} {values : List Bool}
    (h : MeanAll [] clauses values) {clause : Json} (hclause : clause ∈ clauses) :
    ∃ value, Means [] clause value := by
  generalize hfound : ([] : List (Json × Bool)) = found at h
  induction clauses generalizing values found with
  | nil => exact absurd hclause List.not_mem_nil
  | cons first rest ih =>
    cases h with
    | cons hfirst hrest =>
      obtain ⟨rfl, rfl⟩ := List.nil_eq_append_iff.1 hfound
      rcases List.mem_cons.1 hclause with rfl | hclause
      · exact ⟨_, hfirst⟩
      · exact ih hclause _ rfl hrest

theorem needsAtom_bool {members : KeyMap Json} {name : String} {clause : Json}
    (hname : name = "filter" ∨ name = "must" ∨ name = "must_not" ∨ name = "should")
    (hclause : clause ∈ listed members name) (hneeds : NeedsAtom clause) :
    NeedsAtom (single "bool" (.object members)) := by
  intro value h
  generalize hfound : ([] : List (Json × Bool)) = found,
    hbool : single "bool" (.object members) = whole at h
  cases h with
  | atom => cases hfound
  | bool hall hnone hsome =>
    obtain ⟨hfront, rfl⟩ := List.nil_eq_append_iff.1 hfound
    obtain ⟨rfl, rfl⟩ := List.append_eq_nil_iff.1 hfront
    obtain rfl : members = _ := by simpa [single] using hbool
    have hmeans : ∃ value, Means [] clause value := by
      rcases hname with rfl | rfl | rfl | rfl
      · exact exists_means_of_meanAll hall (List.mem_append_left _ hclause)
      · exact exists_means_of_meanAll hall (List.mem_append_right _ hclause)
      · exact exists_means_of_meanAll hnone hclause
      · exact exists_means_of_meanAll hsome hclause
    obtain ⟨value, hvalue⟩ := hmeans
    exact hneeds value hvalue

theorem needsAtom_mustNot {clause : Json} (h : NeedsAtom clause) : NeedsAtom (mustNot clause) :=
  needsAtom_bool (.inr (.inr (.inl rfl)))
    (by simp [listed, KeyMap.get?_cons, Json.items?]) h

theorem listed_anyOf_members (clauses : List Json) :
    listed (KeyMap.ofList [("should", .array clauses), ("minimum_should_match", .nat 1)])
      "should" = clauses := by
  simp [listed, KeyMap.ofList, KeyMap.get?_insert, Json.items?]

theorem needsAtom_anyOf {clauses : List Json} {clause : Json} (hclause : clause ∈ clauses)
    (h : NeedsAtom clause) : NeedsAtom (anyOf clauses) :=
  needsAtom_bool (.inr (.inr (.inr rfl))) ((listed_anyOf_members clauses).symm ▸ hclause) h

/-- The clause of a comparison is no `bool` clause, or one over clauses that are none. -/
theorem needsAtom_ofComparison {comparison : Comparison}
    (hlogical : comparison.operator.isLogical = false) :
    NeedsAtom (ofComparison comparison) := by
  rw [ofComparison]
  cases hoperator : comparison.operator with
  | all | any => simp [hoperator, Operator.isLogical] at hlogical
  | notEq | notIn | notLike | notStartsWith | notExist | null =>
    exact needsAtom_mustNot (needsAtom_single (by decide) _)
  | outRange => exact needsAtom_anyOf List.mem_cons_self (needsAtom_single (by decide) _)
  | notEmpty =>
    refine needsAtom_bool (.inl rfl) (?_ : has comparison.column.path ∈ _)
      (needsAtom_single (by decide) _)
    simp [listed, KeyMap.ofList, KeyMap.get?_insert, Json.items?]
  | fullText | phrase =>
    simp only
    split
    · exact needsAtom_single (by decide) _
    · exact needsAtom_single (by decide) _
  | _ => exact needsAtom_single (by decide) _

/-! ### Joined clauses -/

theorem meanAll_nil {found : List (Json × Bool)} {values : List Bool} :
    MeanAll found [] values ↔ found = [] ∧ values = [] := by
  constructor
  · rintro ⟨⟩
    exact ⟨rfl, rfl⟩
  · rintro ⟨rfl, rfl⟩
    exact .nil

section Joined

variable {found : List (Json × Bool)} {members : KeyMap Json} {clauses : List Json} {value : Bool}

/-- A `bool` clause is an atom, or goes by the clauses in its lists. -/
theorem means_bool :
    Means found (single "bool" (.object members)) value ↔
      found = [(single "bool" (.object members), value)] ∨
      ∃ before between behind all none some,
        MeanAll before (listed members "filter" ++ listed members "must") all ∧
        MeanAll between (listed members "must_not") none ∧
        MeanAll behind (listed members "should") some ∧
        found = before ++ between ++ behind ∧
        value = verdict (minimum members) all none some := by
  constructor
  · intro h
    generalize hclause : single "bool" (.object members) = clause at h
    cases h with
    | atom => exact .inl rfl
    | bool hall hnone hsome =>
      obtain rfl : members = _ := by simpa [single] using hclause
      exact .inr ⟨_, _, _, _, _, _, hall, hnone, hsome, rfl, rfl⟩
  · rintro (rfl | ⟨before, between, behind, all, none, some, hall, hnone, hsome, rfl, rfl⟩)
    · exact .atom _ _
    · exact .bool hall hnone hsome

/-- The clause is an atom, or goes by the clauses of a list as `join` says. -/
structure Joins (whole : Json) (clauses : List Json) (join : List Bool → Bool) : Prop where
  means (found : List (Json × Bool)) (value : Bool) : Means found whole value ↔
    found = [(whole, value)] ∨ ∃ values, MeanAll found clauses values ∧ value = join values
  inside : ∀ clause ∈ clauses, sizeOf clause < sizeOf whole

theorem joins_all (scoring : Bool) (clauses : List Json) :
    Joins (single "bool" (single (if scoring then "must" else "filter") (.array clauses))) clauses
      fun values => values.all id := by
  have hverdict : ∀ values, verdict 0 values [] [] = values.all id := by
    intro values
    cases values <;> simp [verdict]
  refine ⟨fun found value => ?_, fun clause hclause => ?_⟩
  · rw [single.eq_def (if scoring then "must" else "filter"), means_bool]
    cases scoring <;>
      simp [listed, minimum, KeyMap.get?_cons, Json.items?, meanAll_nil, hverdict]
  · have hitem := List.sizeOf_lt_of_mem hclause
    have hlist := sizeOf_single (if scoring then "must" else "filter") (.array clauses)
    have hbool := sizeOf_single "bool"
      (single (if scoring then "must" else "filter") (.array clauses))
    simp only [Json.array.sizeOf_spec] at hlist
    omega

theorem joins_anyOf (clauses : List Json) :
    Joins (anyOf clauses) clauses fun values => values.isEmpty || values.any id := by
  have hverdict : ∀ values, verdict 1 [] [] values = (values.isEmpty || values.any id) := by
    intro values
    rw [Bool.eq_iff_iff]
    simp [verdict]
  refine ⟨fun found value => ?_, fun clause hclause => ?_⟩
  · rw [anyOf, Json.ofMembers, means_bool]
    simp [listed, minimum, KeyMap.ofList, KeyMap.empty, KeyMap.get?_insert, Json.items?,
      Json.nat, meanAll_nil, hverdict]
  · rw [← listed_anyOf_members clauses] at hclause
    exact Nat.lt_trans (sizeOf_listed hclause) (sizeOf_single ..)

/-- A clause that joins clauses has one value at most, if these have: an atom that is next is one of
those that stand in it. -/
theorem Joins.eq_of_means {whole : Json} {join : List Bool → Bool}
    {inside more rest : List (Json × Bool)} {truths : List Bool} (hjoins : Joins whole clauses join)
    (hinside : MeanAll inside clauses truths) (hrest : ∀ atom ∈ rest, NeedsAtom atom.1)
    (hunique : ∀ values, MeanAll found clauses values → found = inside ∧ values = truths)
    (h : Means found whole value) (hfound : found ++ more = inside ++ rest) :
    found = inside ∧ value = join truths := by
  rcases (hjoins.means found value).1 h with rfl | ⟨values, hvalues, rfl⟩
  · cases inside with
    | nil =>
      -- without atoms inside, the clause can be read without any
      have hatom : (whole, value) ∈ rest := by
        rw [← List.nil_append rest, ← hfound]
        exact List.mem_cons_self
      have hwhole : Means [] whole (join truths) := (hjoins.means _ _).2 (.inr ⟨_, hinside, rfl⟩)
      exact absurd hwhole (hrest _ hatom _)
    | cons atom others =>
      obtain ⟨rfl, -⟩ := List.cons.inj hfound
      obtain ⟨clause, hclause, hle⟩ := sizeOf_atom_le_of_meanAll hinside List.mem_cons_self
      exact absurd (hjoins.inside clause hclause) (Nat.not_lt.2 hle)
  · obtain ⟨hsame, rfl⟩ := hunique values hvalues
    exact ⟨hsame, rfl⟩

end Joined

end Clause

end ViewCompiler
