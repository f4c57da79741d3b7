import ViewCompiler.Proofs.Page.Document
import ViewCompiler.Proofs.Page.Reading
import Mathlib.Data.List.Pairwise

/-!
# What a picked document holds

The values that fields read are set at the paths of the fields, one after another.

* `Row.exists_setAt`: a value can be set unless something other than an object stands on its path.
* `Row.at?_setAt_append`, `Row.at?_setAt_of_apart`: what is found at a path and elsewhere after a
  value has been set.
* `Row.writes`, `Row.pick_eq`: **picking is setting what the fields read.**
* `Row.Holds`: a row holds the values of some writes at their paths and nothing else.
* `Row.Holds.exists_write`: a write keeps this, if no earlier one was on its path.
* `Row.pick_exact`: **if no path of a field starts with that of another one, picking succeeds and
  shows exactly what each field reads.**
-/

namespace ViewCompiler

namespace Row

open Json (InOrder)

variable {row picked document : Row} {path other above rest : List String} {value found : Json}
  {segment : String}

/-! ### Setting a value -/

/-- Only objects stand on the path, before its end. -/
def Admits (row : Row) (path : List String) : Prop :=
  ∀ above, above <+: path → above ≠ path → ∀ found, (Json.object row).at? above = some found →
    ∃ members, found = .object members

theorem setAt_cons_eq_ok (hrest : rest ≠ []) :
    setAt (segment :: rest) value row = .ok picked ↔
      ∃ inner below : Row, (row.get? segment = none ∧ inner = [] ∨
          row.get? segment = some (.object inner)) ∧
        setAt rest value inner = .ok below ∧ picked = row.insert segment (.object below) := by
  rw [setAt]
  · split
    · next hnone =>
      rw [Result.map_eq_ok]
      constructor
      · rintro ⟨below, hbelow, rfl⟩
        exact ⟨[], below, .inl ⟨hnone, rfl⟩, hbelow, rfl⟩
      · rintro ⟨inner, below, ⟨-, rfl⟩ | hsome, hbelow, rfl⟩
        · exact ⟨below, hbelow, rfl⟩
        · exact absurd (hnone.symm.trans hsome) (Option.some_ne_none _).symm
    · next inner hinner =>
      rw [Result.map_eq_ok]
      constructor
      · rintro ⟨below, hbelow, rfl⟩
        exact ⟨inner, below, .inr hinner, hbelow, rfl⟩
      · rintro ⟨inner', below, ⟨hnone, -⟩ | hsome, hbelow, rfl⟩
        · exact absurd (hnone.symm.trans hinner) (Option.some_ne_none _).symm
        · obtain rfl := Json.object.inj (Option.some.inj (hinner.symm.trans hsome))
          exact ⟨below, hbelow, rfl⟩
    · next found hother hfound =>
      refine iff_of_false (by simp) ?_
      rintro ⟨inner, below, ⟨hnone, -⟩ | hsome, -, -⟩
      · exact absurd (hnone.symm.trans hfound) (Option.some_ne_none _).symm
      · exact hother inner (Option.some.inj (hfound.symm.trans hsome))
  · exact hrest

theorem exists_setAt (h : row.Admits path) (value : Json) :
    ∃ picked, setAt path value row = .ok picked := by
  induction path generalizing row with
  | nil => exact ⟨row, rfl⟩
  | cons segment rest ih =>
    by_cases hrest : rest = []
    · subst hrest
      exact ⟨_, rfl⟩
    have hproper : [segment] ≠ segment :: rest := fun heq => hrest (List.cons.inj heq).2.symm
    cases hget : row.get? segment with
    | none =>
      have hadmits : Admits [] rest := by
        intro above _ _ found hat
        cases above with
        | nil => exact ⟨[], (Option.some.inj hat).symm⟩
        | cons => cases hat
      obtain ⟨below, hbelow⟩ := ih hadmits
      exact ⟨_, (setAt_cons_eq_ok hrest).2 ⟨[], below, .inl ⟨hget, rfl⟩, hbelow, rfl⟩⟩
    | some found =>
      have hfound : (Json.object row).at? [segment] = some found := by
        rw [Json.at?_object_cons, hget]
        rfl
      obtain ⟨inner, rfl⟩ := h [segment] (List.prefix_append [segment] rest) hproper found hfound
      have hadmits : Admits inner rest := by
        intro above habove hne found hat
        refine h (segment :: above) (List.cons_prefix_cons.2 ⟨rfl, habove⟩)
          (fun heq => hne (List.cons.inj heq).2) found ?_
        rw [Json.at?_object_cons, hget]
        exact hat
      obtain ⟨below, hbelow⟩ := ih hadmits
      exact ⟨_, (setAt_cons_eq_ok hrest).2 ⟨inner, below, .inr hget, hbelow, rfl⟩⟩

theorem at?_setAt_append (hpath : path ≠ []) (h : setAt path value row = .ok picked)
    (rest : List String) : (Json.object picked).at? (path ++ rest) = value.at? rest := by
  induction path generalizing row picked with
  | nil => exact absurd rfl hpath
  | cons segment path ih =>
    rw [List.cons_append]
    by_cases hnil : path = []
    · subst hnil
      obtain rfl := Except.ok.inj h
      rw [Json.at?_insert, if_pos rfl]
      rfl
    · obtain ⟨inner, below, -, hbelow, rfl⟩ := (setAt_cons_eq_ok hnil).1 h
      rw [Json.at?_insert, if_pos rfl]
      exact ih hnil hbelow

theorem at?_setAt (hpath : path ≠ []) (h : setAt path value row = .ok picked) :
    (Json.object picked).at? path = some value := by
  have hbelow := at?_setAt_append hpath h []
  rwa [List.append_nil] at hbelow

theorem at?_setAt_of_apart (h : setAt path value row = .ok picked) (hpath : ¬path <+: other)
    (hother : ¬other <+: path) : (Json.object picked).at? other = (Json.object row).at? other := by
  induction path generalizing row picked other with
  | nil => exact absurd List.nil_prefix hpath
  | cons segment path ih =>
    cases other with
    | nil => exact absurd List.nil_prefix hother
    | cons first other =>
      by_cases hnil : path = []
      · subst hnil
        obtain rfl := Except.ok.inj h
        refine (Json.at?_insert row segment value first other).trans (if_neg ?_)
        rintro rfl
        exact hpath (List.prefix_append [segment] other)
      · obtain ⟨inner, below, hinner, hbelow, rfl⟩ := (setAt_cons_eq_ok hnil).1 h
        rw [Json.at?_insert]
        split
        · next heq =>
          subst heq
          have hpath' : ¬path <+: other := fun hle => hpath (List.cons_prefix_cons.2 ⟨rfl, hle⟩)
          have hother' : ¬other <+: path := fun hle => hother (List.cons_prefix_cons.2 ⟨rfl, hle⟩)
          rw [ih hbelow hpath' hother', Json.at?_object_cons]
          rcases hinner with ⟨hnone, rfl⟩ | hsome
          · -- nothing was below the segment, and the other path goes on there
            have hne : other ≠ [] := by
              rintro rfl
              exact hother' List.nil_prefix
            rw [hnone]
            cases other with
            | nil => exact absurd rfl hne
            | cons => rfl
          · rw [hsome]
            rfl
        · rfl

theorem inOrder_setAt (hrow : InOrder (.object row)) (hvalue : InOrder value)
    (h : setAt path value row = .ok picked) : InOrder (.object picked) := by
  induction path generalizing row picked with
  | nil => exact Except.ok.inj h ▸ hrow
  | cons segment path ih =>
    by_cases hnil : path = []
    · subst hnil
      exact Except.ok.inj h ▸ hrow.insert hvalue segment
    · obtain ⟨inner, below, ⟨-, rfl⟩ | hsome, hbelow, rfl⟩ := (setAt_cons_eq_ok hnil).1 h
      · exact hrow.insert (ih Json.inOrder_empty hbelow) segment
      · exact hrow.insert (ih (hrow.of_get? hsome) hbelow) segment

/-! ### Writes -/

/-- The paths of the fields that read something, with what they read. -/
def writes (document : Row) (fields : List Field) : List (List String × Json) :=
  fields.filterMap fun field => (document.read? field.path).map fun value => (field.path, value)

/-- Set the value of a write at its path. -/
def write (row : Row) (written : List String × Json) : Except RowError Row :=
  setAt written.1 written.2 row

theorem pickField_eq (document row : Row) (field : Field) :
    pickField document row field =
      (document.read? field.path).elim (.ok row) fun value => row.write (field.path, value) := by
  have hfound : pickField document row field =
      if (document.found field.path).values.isEmpty then .ok row
      else setAt field.path (document.found field.path).value row := by
    unfold pickField found
    cases field.path <;> rfl
  rw [hfound, read?]
  split <;> rfl

/-- **Picking is setting what the fields read.** -/
theorem pick_eq (document : Row) (fields : List Field) :
    pick document fields = (writes document fields).foldlM write [] := by
  unfold pick writes
  -- for any row that is built so far, or the fold would not go through
  generalize ([] : Row) = row
  induction fields generalizing row with
  | nil => rfl
  | cons field rest ih =>
    rw [List.foldlM_cons, pickField_eq, List.filterMap_cons]
    cases document.read? field.path with
    | none => exact ih row
    | some value =>
      rw [Option.map_some, List.foldlM_cons]
      exact congrArg _ (funext fun next => ih next)

theorem mem_writes {fields : List Field} {written : List String × Json} :
    written ∈ writes document fields ↔
      ∃ field ∈ fields, field.path = written.1 ∧ document.read? field.path = some written.2 := by
  obtain ⟨path, value⟩ := written
  simp only [writes, List.mem_filterMap, Option.map_eq_some_iff, Prod.mk.injEq]
  constructor
  · rintro ⟨field, hfield, read, hread, hpath, rfl⟩
    exact ⟨field, hfield, hpath, hread⟩
  · rintro ⟨field, hfield, hpath, hread⟩
    exact ⟨field, hfield, value, hread, hpath, rfl⟩

/-- Everything in the row stands at the path of a write or below it, or is an object on the way to
one. -/
def WithinWrites (row : Row) (written : List (List String × Json)) : Prop :=
  ∀ path ≠ [], ∀ found, (Json.object row).at? path = some found →
    ∃ one ∈ written, one.1 <+: path ∨ path <+: one.1 ∧ ∃ members, found = .object members

theorem withinWrites_empty : WithinWrites [] [] := by
  intro path hpath found hat
  cases path with
  | nil => exact absurd rfl hpath
  | cons => cases hat

theorem WithinWrites.write {written : List (List String × Json)} {one : List String × Json}
    (h : row.WithinWrites written) (hone : one.1 ≠ []) (hwrite : row.write one = .ok picked) :
    picked.WithinWrites (written ++ [one]) := by
  intro path hpath found hat
  have hlast : one ∈ written ++ [one] := List.mem_append_right _ (List.mem_singleton_self one)
  by_cases hbelow : one.1 <+: path
  · exact ⟨one, hlast, .inl hbelow⟩
  by_cases habove : path <+: one.1
  · have hend : (Json.object picked).at? one.1 ≠ none :=
      at?_setAt hone hwrite ▸ Option.some_ne_none _
    have hne : path ≠ one.1 := fun heq => hbelow (heq ▸ List.prefix_refl one.1)
    obtain ⟨members, hmembers⟩ := Json.exists_object_above hend habove hne
    exact ⟨one, hlast, .inr ⟨habove, members, Option.some.inj (hat.symm.trans hmembers)⟩⟩
  · rw [at?_setAt_of_apart hwrite hbelow habove] at hat
    obtain ⟨earlier, hearlier, hpaths⟩ := h path hpath found hat
    exact ⟨earlier, List.mem_append_left _ hearlier, hpaths⟩

/-- A path can be written unless it goes on where an earlier one ends. -/
theorem WithinWrites.admits {written : List (List String × Json)} (h : row.WithinWrites written)
    (hends : ∀ earlier ∈ written, earlier.1 <+: path → earlier.1 = path) : row.Admits path := by
  intro above habove hne found hat
  by_cases hnil : above = []
  · subst hnil
    exact ⟨row, (Option.some.inj hat).symm⟩
  obtain ⟨earlier, hearlier, hbelow | ⟨-, hobject⟩⟩ := h above hnil found hat
  · have hend := hends earlier hearlier (hbelow.trans habove)
    exact absurd (habove.eq_of_length_le (hend ▸ hbelow).length_le) hne
  · exact hobject

/-- The row holds the values of the writes at their paths and nothing else. -/
structure Holds (row : Row) (written : List (List String × Json)) : Prop where
  at? : ∀ one ∈ written, (Json.object row).at? one.1 = some one.2
  within : row.WithinWrites written

theorem holds_empty : Holds [] [] where
  at? _ hone := absurd hone List.not_mem_nil
  within := withinWrites_empty

/-- A write is added to those that a row holds, if it does not go on where an earlier one ends and
keeps what earlier ones have set below it. -/
theorem Holds.exists_write {written : List (List String × Json)} {one : List String × Json}
    (h : row.Holds written) (hone : one.1 ≠ [])
    (hends : ∀ earlier ∈ written, ¬earlier.1 <+: one.1)
    (hbelow : ∀ earlier ∈ written, ∀ rest, earlier.1 = one.1 ++ rest →
      one.2.at? rest = some earlier.2) :
    ∃ picked, row.write one = .ok picked ∧ picked.Holds (written ++ [one]) := by
  have hadmits : row.Admits one.1 :=
    h.within.admits fun earlier hearlier hle => absurd hle (hends earlier hearlier)
  obtain ⟨picked, hpicked⟩ := exists_setAt hadmits one.2
  refine ⟨picked, hpicked, fun other hother => ?_, h.within.write hone hpicked⟩
  rcases List.mem_append.1 hother with hearlier | hlast
  · by_cases hle : one.1 <+: other.1
    · obtain ⟨rest, hrest⟩ := hle
      rw [← hrest, at?_setAt_append hone hpicked]
      exact hbelow other hearlier rest hrest.symm
    · rw [at?_setAt_of_apart hpicked hle (hends other hearlier)]
      exact h.at? other hearlier
  · obtain rfl := List.mem_singleton.1 hlast
    exact at?_setAt hone hpicked

theorem path_ne_nil_of_mem_writes {fields : List Field} {one : List String × Json}
    (h : one ∈ writes document fields) : one.1 ≠ [] := by
  obtain ⟨field, -, hpath, -⟩ := mem_writes.1 h
  exact hpath ▸ field.path_ne_nil

theorem exists_holds_of_pairwise {writes : List (List String × Json)}
    (hpaths : ∀ one ∈ writes, one.1 ≠ [])
    (h : writes.Pairwise fun first second =>
      ¬first.1 <+: second.1 ∧ ¬second.1 <+: first.1) :
    ∃ row, writes.foldlM write [] = .ok row ∧ Holds row writes := by
  refine Result.exists_foldlM Holds writes holds_empty fun row before one after heq hrow => ?_
  subst heq
  have hapart := (List.pairwise_append.1 h).2.2
  refine hrow.exists_write (hpaths one (by simp))
    (fun earlier hearlier => (hapart earlier hearlier one List.mem_cons_self).1) ?_
  intro earlier hearlier rest hrest
  exact absurd ⟨rest, hrest.symm⟩ (hapart earlier hearlier one List.mem_cons_self).2

/-- A row that holds what the fields write shows what each field reads, if no path of a field starts
with that of another one. -/
theorem Holds.at?_eq_read? {fields : List Field} (hholds : Holds row (writes document fields))
    (h : fields.Pairwise fun first second =>
      ¬first.path <+: second.path ∧ ¬second.path <+: first.path)
    {field : Field} (hfield : field ∈ fields) :
    (Json.object row).at? field.path = document.read? field.path := by
  cases hvalue : document.read? field.path with
  | some value => exact hholds.at? (field.path, value) (mem_writes.2 ⟨field, hfield, rfl, hvalue⟩)
  | none =>
    by_contra hne
    obtain ⟨found, hfound⟩ := Option.ne_none_iff_exists'.1 hne
    -- what stands there would come from a field whose path starts the same way
    obtain ⟨one, hone, hpaths⟩ := hholds.within field.path field.path_ne_nil found hfound
    obtain ⟨other, hother, hpath, hone⟩ := mem_writes.1 hone
    have hdistinct : other ≠ field := by
      rintro rfl
      exact absurd (hvalue.symm.trans hone) (Option.some_ne_none _).symm
    have : Std.Symm fun first second : Field =>
        ¬first.path <+: second.path ∧ ¬second.path <+: first.path :=
      ⟨fun first second hapart => hapart.symm⟩
    obtain ⟨hle, hge⟩ := h.forall hother hfield hdistinct
    rw [← hpath] at hpaths
    rcases hpaths with hpaths | ⟨hpaths, -⟩
    · exact hle hpaths
    · exact hge hpaths

theorem inOrder_read? (h : InOrder (.object document)) (hpath : path ≠ [])
    (hread : document.read? path = some value) : InOrder value := by
  by_cases hmeets : (Json.object document).MeetsArray path
  · rw [read?_eq_array hpath hmeets] at hread
    split at hread
    · cases hread
    · obtain rfl := Option.some.inj hread
      exact .other rfl
  · rw [read?_eq_at? hpath hmeets] at hread
    exact h.of_at? (Option.filter_eq_some_iff.1 hread).1

theorem inOrder_pick {fields : List Field} (h : InOrder (.object document))
    (hpick : pick document fields = .ok picked) : InOrder (.object picked) := by
  suffices hfold : ∀ row : Row, InOrder (.object row) →
      fields.foldlM (pickField document) row = .ok picked → InOrder (.object picked) from
    hfold [] Json.inOrder_empty hpick
  clear hpick
  induction fields with
  | nil => exact fun row hrow hpick => Except.ok.inj hpick ▸ hrow
  | cons field rest ih =>
    intro row hrow hpick
    rw [List.foldlM_cons] at hpick
    obtain ⟨next, hnext, hrest⟩ := Result.bind_eq_ok.1 hpick
    refine ih next ?_ hrest
    rw [pickField_eq] at hnext
    cases hread : document.read? field.path with
    | none =>
      rw [hread] at hnext
      exact Except.ok.inj hnext ▸ hrow
    | some value =>
      rw [hread] at hnext
      exact inOrder_setAt hrow (inOrder_read? h field.path_ne_nil hread) hnext

/-- **Fields whose paths do not start with one another show exactly what they read.**  Picking
succeeds; at the path of a field stands the value that is there in the document, if it is not
`null` and no array is met, and otherwise the array of what is reached, if there is anything; and
there is nothing else. -/
theorem pick_exact (document : Row) (fields : List Field)
    (h : fields.Pairwise fun first second =>
      ¬first.path <+: second.path ∧ ¬second.path <+: first.path) :
    ∃ row, pick document fields = .ok row ∧
      (∀ field ∈ fields,
        (¬(Json.object document).MeetsArray field.path → (Json.object row).at? field.path =
          ((Json.object document).at? field.path).filter fun found => !found.isNull) ∧
        ((Json.object document).MeetsArray field.path → (Json.object row).at? field.path =
          if (Json.object document).reached field.path = [] then none
          else some (.array ((Json.object document).reached field.path)))) ∧
      (∀ path ≠ [], (Json.object row).at? path ≠ none →
        ∃ field ∈ fields, (Json.object row).at? field.path ≠ none ∧
          (path <+: field.path ∨ field.path <+: path)) ∧
      (InOrder (.object document) → InOrder (.object row)) := by
  have hwrites : (writes document fields).Pairwise fun first second =>
      ¬first.1 <+: second.1 ∧ ¬second.1 <+: first.1 := by
    refine h.filterMap _ fun first second hapart one hone other hother => ?_
    obtain ⟨_, -, rfl⟩ := Option.map_eq_some_iff.1 hone
    obtain ⟨_, -, rfl⟩ := Option.map_eq_some_iff.1 hother
    exact hapart
  obtain ⟨row, hrow, hholds⟩ := exists_holds_of_pairwise (fun _ => path_ne_nil_of_mem_writes) hwrites
  have hpick : pick document fields = .ok row := (pick_eq document fields).trans hrow
  have hread : ∀ field ∈ fields, (Json.object row).at? field.path = document.read? field.path :=
    fun field hfield => hholds.at?_eq_read? h hfield
  refine ⟨row, hpick, fun field hfield => ⟨fun hmeets => ?_, fun hmeets => ?_⟩, ?_,
    fun hdocument => inOrder_pick hdocument hpick⟩
  · rw [hread field hfield, read?_eq_at? field.path_ne_nil hmeets]
  · rw [hread field hfield, read?_eq_array field.path_ne_nil hmeets]
  · intro path hpath hat
    obtain ⟨found, hfound⟩ := Option.ne_none_iff_exists'.1 hat
    obtain ⟨one, hone, hpaths⟩ := hholds.within path hpath found hfound
    have hend := hholds.at? one hone
    obtain ⟨field, hfield, hfieldPath, -⟩ := mem_writes.1 hone
    rw [← hfieldPath] at hend hpaths
    exact ⟨field, hfield, hend ▸ Option.some_ne_none _, hpaths.symm.imp_left And.left⟩

/-- An array on the way and one at the end, a value below an object, and nothing to read. -/
theorem pick_exact_mixed :
    ∃ row, pick
        [("events", .array [.object [("code", .bool true)], .object [("code", .array [.null])]]),
          ("host", .object [("ip", .null), ("name", .string "web-1")])]
        [Field.ofName "events.code" .long, Field.ofName "host.name" .keyword,
          Field.ofName "host.ip" .keyword] = .ok row ∧
      (Json.object row).at? ["events", "code"] = some (.array [.bool true]) ∧
      (Json.object row).at? ["host", "name"] = some (.string "web-1") ∧
      (Json.object row).at? ["host", "ip"] = none := by
  obtain ⟨row, hrow, hread, -, -⟩ := pick_exact
    [("events", .array [.object [("code", .bool true)], .object [("code", .array [.null])]]),
      ("host", .object [("ip", .null), ("name", .string "web-1")])]
    [Field.ofName "events.code" .long, Field.ofName "host.name" .keyword,
      Field.ofName "host.ip" .keyword] (by decide)
  have hevents := hread _ List.mem_cons_self
  have hname := hread _ (List.mem_cons_of_mem _ List.mem_cons_self)
  have hip := hread _ (List.mem_cons_of_mem _ (List.mem_cons_of_mem _ List.mem_cons_self))
  rw [show (Field.ofName "events.code" .long).path = ["events", "code"] by decide +kernel] at hevents
  rw [show (Field.ofName "host.name" .keyword).path = ["host", "name"] by decide +kernel] at hname
  rw [show (Field.ofName "host.ip" .keyword).path = ["host", "ip"] by decide +kernel] at hip
  refine ⟨row, hrow, ?_, ?_, ?_⟩
  · rw [hevents.2 ⟨["events"], _, by decide, rfl⟩]
    simp [Json.reached, Json.elements, Json.elementsOf, Json.member?, Json.members?, KeyMap.get?_cons]
  · rw [hname.1 (mt (many_found _ (by decide)).2 (by decide +kernel))]
    simp [KeyMap.get?_cons, Json.isNull]
  · rw [hip.1 (mt (many_found _ (by decide)).2 (by decide +kernel))]
    simp [KeyMap.get?_cons, Json.isNull]

end Row

end ViewCompiler
