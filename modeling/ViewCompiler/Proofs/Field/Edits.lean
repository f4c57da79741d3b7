import ViewCompiler.Proofs.Field.FieldSet

/-!
# Edits of field sets

A field set starts from a list and is edited step by step. A field that is changed in place may get
another name, of which the index is not told.

* `FieldSet.Synced`: the index leads from each name to its first field, and from no other name.
* `FieldSet.Synced.lookups`: then lookups agree with a search through the fields.
* `FieldSet.Synced.apply_iff`: **an edit keeps the index in step exactly if the field that it
  reaches keeps its name.**
* `FieldSet.states_synced_iff`: the same for all states of a run.
-/

namespace ViewCompiler

namespace FieldSet

variable {set : FieldSet}

/-- The index leads from each name to the position of its first field, and from no other name. -/
def Synced (set : FieldSet) : Prop :=
  ∀ name, set.index.get? name = set.fields.findIdx? fun field => field.name = name

/-- Lookups agree with a search for the first field of a name. -/
def Lookups (set : FieldSet) : Prop :=
  ∀ name, (set.get? name = set.fields.find? fun field => field.name = name) ∧
    set.contains name = set.fields.any fun field => field.name = name

theorem Indexed.synced (h : set.Indexed) : set.Synced := by
  intro name
  rw [h, ofList, get?_indexFrom, KeyMap.get?_nil, Option.none_or]
  exact Option.map_id_apply

theorem Synced.lookups (h : set.Synced) : set.Lookups := by
  intro name
  constructor
  · rw [get?, h, List.find?_eq_bind_findIdx?_getElem?]
  · rw [contains, KeyMap.contains, h, List.findIdx?_isSome]

theorem Synced.exists_field (h : set.Synced) {name : String} {position : Nat}
    (hposition : set.index.get? name = some position) :
    ∃ field, set.fields[position]? = some field ∧ field.name = name := by
  rw [h] at hposition
  obtain ⟨hlt, hname, -⟩ := List.findIdx?_eq_some_iff_getElem.1 hposition
  exact ⟨_, List.getElem?_eq_getElem hlt, by simpa using hname⟩

/-! ### One edit -/

/-- An edit of a field set. -/
inductive Edit where
  /-- A field is appended. -/
  | push (field : Field)
  /-- The field that a name leads to is changed in place. -/
  | modify (name : String) (f : Field → Field)
  /-- The fields with one of the names are kept. -/
  | narrow (names : List String)

namespace Edit

/-- The set after the edit. -/
def apply (set : FieldSet) : Edit → FieldSet
  | push field => set.push field
  | modify name f => set.modify name f
  | narrow names => set.narrowedTo names

/-- The field that is changed in place, if any, keeps its name. -/
def KeepsName (set : FieldSet) : Edit → Prop
  | modify name f => ∀ field, set.get? name = some field → (f field).name = field.name
  | _ => True

end Edit

theorem Synced.push (h : set.Synced) (field : Field) : (set.push field).Synced := by
  rw [FieldSet.push]
  split
  · exact h
  · next hnew =>
    intro name
    have hfirst : set.fields.findIdx? (fun other => other.name = field.name) = none := by
      rw [← h]
      simpa [contains, KeyMap.contains] using hnew
    rw [KeyMap.get?_insert, List.findIdx?_append, List.findIdx?_singleton, h]
    by_cases hname : field.name = name
    · subst hname
      simp [hfirst]
    · simp [hname]

theorem names_modify {fields : List Field} {position : Nat} {f : Field → Field}
    (h : ∀ field, fields[position]? = some field → (f field).name = field.name) :
    (fields.modify position f).map Field.name = fields.map Field.name := by
  refine List.ext_getElem? fun i => ?_
  rw [List.getElem?_map, List.getElem?_map, List.getElem?_modify]
  by_cases hi : position = i
  · subst hi
    cases hfield : fields[position]? with
    | none => rfl
    | some field => simp [h field hfield]
  · simp [hi]

theorem Synced.modify (h : set.Synced) {name : String} {f : Field → Field}
    (hname : (Edit.modify name f).KeepsName set) : (set.modify name f).Synced := by
  rw [FieldSet.modify]
  split
  · exact h
  · next position hposition =>
    have hnames : (set.fields.modify position f).map Field.name = set.fields.map Field.name :=
      names_modify fun field hfield => hname field (by rw [get?, hposition]; exact hfield)
    -- which field is the first of a name is a question about the names
    have hfirst (fields : List Field) (other : String) :
        (fields.findIdx? fun field => field.name = other) =
          (fields.map Field.name).findIdx? fun text => text = other := by
      rw [List.findIdx?_map]
      rfl
    intro other
    rw [hfirst, hnames, ← hfirst]
    exact h other

/-- A field that is renamed in place is found under the name that it had. -/
theorem Synced.keepsName_of_lookups (h : set.Synced) {name : String} {f : Field → Field}
    (hlookups : (set.modify name f).Lookups) : (Edit.modify name f).KeepsName set := by
  intro field hget
  obtain ⟨position, hposition, hfield⟩ := Option.bind_eq_some_iff.1 hget
  obtain ⟨reached, hreached, rfl⟩ := h.exists_field hposition
  obtain rfl : reached = field := Option.some.inj (hreached.symm.trans hfield)
  have hchanged : (set.modify reached.name f).get? reached.name = some (f reached) := by
    simp [FieldSet.modify, get?, hposition, hfield]
  rw [(hlookups reached.name).1] at hchanged
  simpa using List.find?_some hchanged

/-- **An edit keeps the index in step**, and the lookups with it, exactly if the field that it
changes in place keeps its name. -/
theorem Synced.apply_iff (h : set.Synced) (edit : Edit) :
    ((edit.apply set).Synced ↔ edit.KeepsName set) ∧
      ((edit.apply set).Lookups ↔ edit.KeepsName set) := by
  have hkeeps : edit.KeepsName set → (edit.apply set).Synced := by
    cases edit with
    | push field => exact fun _ => h.push field
    | modify name f => exact h.modify
    | narrow names => exact fun _ => (indexed_narrowedTo set names).synced
  have hname : (edit.apply set).Lookups → edit.KeepsName set := by
    cases edit with
    | push => exact fun _ => trivial
    | modify name f => exact h.keepsName_of_lookups
    | narrow => exact fun _ => trivial
  exact ⟨⟨fun hsynced => hname hsynced.lookups, hkeeps⟩,
    ⟨hname, fun hedit => (hkeeps hedit).lookups⟩⟩

/-! ### Runs -/

/-- The states of a run of edits, from the set at its start on. -/
def states (set : FieldSet) : List Edit → List FieldSet
  | [] => [set]
  | edit :: rest => set :: states (edit.apply set) rest

/-- No edit of a run renames the field that it changes in place. -/
def KeepsNames (set : FieldSet) : List Edit → Prop
  | [] => True
  | edit :: rest => edit.KeepsName set ∧ KeepsNames (edit.apply set) rest

theorem mem_states_self (set : FieldSet) (edits : List Edit) : set ∈ states set edits := by
  cases edits <;> simp [states]

/-- What holds of a set in step, and after an edit exactly if names are kept, holds throughout a run
exactly if names are kept. -/
theorem Synced.states_iff {P : FieldSet → Prop} (hsynced : ∀ set : FieldSet, set.Synced → P set)
    (hstep : ∀ set : FieldSet, set.Synced → ∀ edit : Edit,
      P (edit.apply set) → edit.KeepsName set)
    (h : set.Synced) (edits : List Edit) :
    (∀ state ∈ states set edits, P state) ↔ KeepsNames set edits := by
  -- on the edits: the set after the first one is in step again if a name was kept, and only then is
  -- anything known of the others
  induction edits generalizing set with
  | nil => simpa [states, KeepsNames] using hsynced set h
  | cons edit rest ih =>
    rw [states, KeepsNames, List.forall_mem_cons]
    constructor
    · rintro ⟨-, hrest⟩
      have hname := hstep set h edit (hrest _ (mem_states_self _ rest))
      exact ⟨hname, (ih ((h.apply_iff edit).1.2 hname)).1 hrest⟩
    · rintro ⟨hname, hrest⟩
      exact ⟨hsynced set h, (ih ((h.apply_iff edit).1.2 hname)).2 hrest⟩

/-- **The index stays in step** through a run of edits from any list of fields, and with it every
lookup, exactly if no field is renamed in place. -/
theorem states_synced_iff (fields : List Field) (edits : List Edit) :
    ((∀ state ∈ states (ofList fields) edits, state.Synced) ↔ KeepsNames (ofList fields) edits) ∧
      ((∀ state ∈ states (ofList fields) edits, state.Lookups) ↔
        KeepsNames (ofList fields) edits) := by
  have hstart := (indexed_ofList fields).synced
  constructor
  · exact hstart.states_iff (fun _ h => h) (fun _ h edit => (h.apply_iff edit).1.1) edits
  · exact hstart.states_iff (fun _ h => h.lookups) (fun _ h edit => (h.apply_iff edit).2.1) edits

/-- A field that gets another name is found under the one that it had. -/
theorem states_synced_iff_renamed :
    let set := ofList [.ofName "a" .long]
    let edit := Edit.modify "a" fun field => { field with name := "b" }
    (edit.apply set).names = ["b"] ∧
      ((edit.apply set).get? "a").map Field.name = some "b" ∧
      (edit.apply set).contains "b" = false ∧
      (¬∀ state ∈ states set [edit], state.Synced) ∧
      ¬∀ state ∈ states set [edit], state.Lookups := by
  intro set edit
  have hrenamed : ¬KeepsNames set [edit] := fun hkeeps => absurd (hkeeps.1 _ rfl) (by decide)
  obtain ⟨hsynced, hlookups⟩ := states_synced_iff [.ofName "a" .long] [edit]
  exact ⟨by decide, by decide, by decide, mt hsynced.1 hrenamed, mt hlookups.1 hrenamed⟩

end FieldSet

end ViewCompiler
