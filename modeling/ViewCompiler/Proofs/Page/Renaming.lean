import ViewCompiler.Page.Basic
import ViewCompiler.Proofs.KeyMap
import Mathlib.Data.List.Nodup

/-!
# The names that repeated columns get

A statement of the caller may give columns of the same name. Each of them gets a field, and a name
that has come before gets the number of times that it has come. Only the columns before are looked
at, so that a name with a number may be the name of another column.

* `SqlColumn.numbered`: a name with a number, from which both are read back (`numbered_inj`).
* `SqlColumn.occurrences`: the columns, each with the number of times that its name has come before;
  no two are the same (`nodup_occurrences`), and the names of the fields are their labels
  (`names_toFields`).
* `SqlColumn.Apart`: no name that gets a number is the name of a column.
* `Row.map_get?_ofPositions`: under distinct names each value stands under its own.
* `SqlColumn.keeps_iff_apart`: **each column has a field in its place, the fields have distinct
  names exactly if the names are apart, and exactly then every row keeps all of its values.**
-/

namespace ViewCompiler

/-- A text is read back from both sides of the last occurrence of a character. -/
theorem Text.append_cons_inj {first second rest others : List Char} {c : Char}
    (hrest : c ∉ rest) (hothers : c ∉ others) (h : first ++ c :: rest = second ++ c :: others) :
    first = second ∧ rest = others := by
  rcases List.append_eq_append_iff.1 h with ⟨between, rfl, heq⟩ | ⟨between, rfl, heq⟩
  · cases between with
    | nil => exact ⟨(List.append_nil first).symm, (List.cons.inj heq).2⟩
    | cons d between =>
      obtain ⟨-, rfl⟩ := List.cons.inj heq
      exact absurd (List.mem_append_right between List.mem_cons_self) hrest
  · cases between with
    | nil => exact ⟨List.append_nil second, (List.cons.inj heq).2.symm⟩
    | cons d between =>
      obtain ⟨-, rfl⟩ := List.cons.inj heq
      exact absurd (List.mem_append_right between List.mem_cons_self) hothers

namespace SqlColumn

/-! ### Names with numbers -/

/-- A name with a number. -/
def numbered (name : String) (n : Nat) : String := name ++ "_" ++ toString n

theorem notMem_toString {c : Char} (hc : c.isDigit = false) (n : Nat) :
    c ∉ (toString n).toList := by
  intro hmem
  rw [Nat.toString_eq_repr, Nat.toList_repr] at hmem
  have hdigit := Nat.isDigit_of_mem_toDigits (by decide) (by decide) hmem
  rw [hc] at hdigit
  cases hdigit

theorem toString_inj {n m : Nat} (h : (toString n).toList = (toString m).toList) : n = m := by
  rw [Nat.toString_eq_repr, Nat.toString_eq_repr, Nat.toList_repr, Nat.toList_repr] at h
  calc
    n = Nat.ofDigitChars 10 (Nat.toDigits 10 n) 0 := Nat.ofDigitChars_ten_toDigits.symm
    _ = Nat.ofDigitChars 10 (Nat.toDigits 10 m) 0 := by rw [h]
    _ = m := Nat.ofDigitChars_ten_toDigits

theorem numbered_inj {name other : String} {n m : Nat} (h : numbered name n = numbered other m) :
    name = other ∧ n = m := by
  have htexts := congrArg String.toList h
  simp only [numbered, String.toList_append, List.append_assoc] at htexts
  obtain ⟨hname, hdigits⟩ := Text.append_cons_inj (notMem_toString (by decide) n)
    (notMem_toString (by decide) m) htexts
  exact ⟨String.toList_inj.1 hname, toString_inj hdigits⟩

/-- The name of a column with the number of times that it has come before: the number is left out
the first time. -/
def label (occurrence : String × Nat) : String :=
  if occurrence.2 = 0 then occurrence.1 else numbered occurrence.1 occurrence.2

@[simp] theorem label_zero (name : String) : label (name, 0) = name := rfl

theorem label_of_pos {name : String} {n : Nat} (hn : 1 ≤ n) : label (name, n) = numbered name n :=
  if_neg (by omega)

/-! ### Occurrences -/

/-- The columns, each with the number of times that its name has come before. -/
def occurrences (before : List String) : List SqlColumn → List (String × Nat)
  | [] => []
  | column :: rest =>
    (column.name, before.count column.name) :: occurrences (column.name :: before) rest

theorem names_fieldsFrom (before : List String) (columns : List SqlColumn) :
    (fieldsFrom before columns).map Field.name = (occurrences before columns).map label := by
  induction columns generalizing before with
  | nil => rfl
  | cons column rest ih =>
    rw [fieldsFrom, occurrences, List.map_cons, List.map_cons, ih]
    rfl

theorem sources_fieldsFrom (before : List String) (columns : List SqlColumn) :
    (fieldsFrom before columns).map (fun field => (field.originalName, field.type)) =
      columns.map fun column => (column.name, DataType.ofBackend column.type) := by
  induction columns generalizing before with
  | nil => rfl
  | cons column rest ih =>
    simp only [fieldsFrom, Field.ofName, List.map_cons, ih]

theorem names_toFields (columns : List SqlColumn) :
    (toFields columns).names = (occurrences [] columns).map label :=
  names_fieldsFrom [] columns

/-- The numbers of a name go on from the number of times that it has come before. -/
theorem mem_occurrences {before : List String} {columns : List SqlColumn} {name : String}
    {n : Nat} : (name, n) ∈ occurrences before columns ↔
      before.count name ≤ n ∧ n < before.count name + (columns.map SqlColumn.name).count name := by
  induction columns generalizing before with
  | nil => simp [occurrences]
  | cons column rest ih =>
    rw [occurrences, List.mem_cons, ih, List.map_cons, Prod.mk.injEq]
    by_cases hname : column.name = name
    · subst hname
      rw [List.count_cons_self, List.count_cons_self, and_iff_right rfl]
      omega
    · rw [List.count_cons_of_ne hname, List.count_cons_of_ne hname]
      constructor
      · rintro (⟨heq, -⟩ | hlater)
        · exact absurd heq.symm hname
        · exact hlater
      · exact .inr

theorem nodup_occurrences (before : List String) (columns : List SqlColumn) :
    (occurrences before columns).Nodup := by
  induction columns generalizing before with
  | nil => exact List.nodup_nil
  | cons column rest ih =>
    refine List.nodup_cons.2 ⟨fun hmem => ?_, ih _⟩
    have hlater := (mem_occurrences.1 hmem).1
    rw [List.count_cons_self] at hlater
    omega

/-! ### Names that are apart -/

/-- No name that gets a number is the name of a column. -/
def Apart (columns : List SqlColumn) : Prop :=
  ∀ name n, 1 ≤ n → n < (columns.map SqlColumn.name).count name →
    numbered name n ∉ columns.map SqlColumn.name

theorem mem_occurrences_nil {columns : List SqlColumn} {name : String} {n : Nat} :
    (name, n) ∈ occurrences [] columns ↔ n < (columns.map SqlColumn.name).count name := by
  rw [mem_occurrences, List.count_nil, Nat.zero_add]
  exact and_iff_right (Nat.zero_le n)

instance (columns : List SqlColumn) : Decidable (Apart columns) :=
  decidable_of_iff (∀ occurrence ∈ occurrences [] columns, 1 ≤ occurrence.2 →
      numbered occurrence.1 occurrence.2 ∉ columns.map SqlColumn.name) <| by
    constructor
    · exact fun hall name n hn hcount => hall (name, n) (mem_occurrences_nil.2 hcount) hn
    · rintro hapart ⟨name, n⟩ hmem hn
      exact hapart name n hn (mem_occurrences_nil.1 hmem)

/-- Labels are the same only if a name with a number is the name of a column. -/
theorem nodup_names_iff (columns : List SqlColumn) :
    (toFields columns).names.Nodup ↔ Apart columns := by
  rw [names_toFields, List.nodup_map_iff_inj_on (nodup_occurrences [] columns)]
  constructor
  · intro hinj name n hn hcount hmem
    have hfirst : (numbered name n, 0) ∈ occurrences [] columns :=
      mem_occurrences_nil.2 (List.count_pos_iff.2 hmem)
    have heq := hinj _ hfirst _ (mem_occurrences_nil.2 hcount)
      ((label_zero _).trans (label_of_pos hn).symm)
    have hzero : 0 = n := congrArg Prod.snd heq
    omega
  · rintro hapart ⟨name, n⟩ hfirst ⟨other, m⟩ hsecond heq
    have hcount := mem_occurrences_nil.1 hfirst
    have hcount' := mem_occurrences_nil.1 hsecond
    rcases Nat.eq_zero_or_pos n with rfl | hn <;> rcases Nat.eq_zero_or_pos m with rfl | hm
    · rw [label_zero, label_zero] at heq
      rw [heq]
    · rw [label_zero, label_of_pos hm] at heq
      exact absurd (List.count_pos_iff.1 (heq ▸ hcount)) (hapart other m hm hcount')
    · rw [label_zero, label_of_pos hn] at heq
      exact absurd (List.count_pos_iff.1 (heq ▸ hcount')) (hapart name n hn hcount)
    · rw [label_of_pos hn, label_of_pos hm] at heq
      exact Prod.ext_iff.2 (numbered_inj heq)

end SqlColumn

/-! ### Rows -/

namespace Row

variable {fields : List Field} {columns : List SqlColumn} {values : List Json} {row : Row}

theorem get?_ofPositions_of_notMem (hcolumns : columns.length = fields.length) {key : String}
    (hkey : key ∉ fields.map Field.name) :
    (ofPositions fields columns values row).get? key = row.get? key := by
  induction fields generalizing columns values row with
  | nil =>
    obtain rfl := List.length_eq_zero_iff.1 hcolumns
    rfl
  | cons field fields ih =>
    cases columns with
    | nil => rfl
    | cons column columns =>
      cases values with
      | nil => rfl
      | cons value values =>
        obtain ⟨hne, hkey⟩ := not_or.1 (mt List.mem_cons.2 hkey)
        rw [ofPositions, List.tail_cons, ih (Nat.succ.inj hcolumns) hkey]
        exact (KeyMap.get?_insert row field.name key value).trans (if_neg (Ne.symm hne))

/-- **Under distinct names each value stands under its own.** -/
theorem map_get?_ofPositions (hcolumns : columns.length = fields.length)
    (hvalues : values.length = columns.length) (hnames : (fields.map Field.name).Nodup) :
    (fields.map Field.name).map (ofPositions fields columns values row).get? =
      values.map some := by
  induction fields generalizing columns values row with
  | nil =>
    obtain rfl := List.length_eq_zero_iff.1 (hvalues.trans hcolumns)
    rfl
  | cons field fields ih =>
    cases columns with
    | nil => cases hcolumns
    | cons column columns =>
      cases values with
      | nil => cases hvalues
      | cons value values =>
        have hlength := Nat.succ.inj hcolumns
        obtain ⟨hnew, hnames⟩ := List.nodup_cons.1 hnames
        -- the later fields have other names, so that the first value is not replaced
        have hfirst : (ofPositions fields columns values (row.insert field.name value)).get?
            field.name = some value := by
          rw [get?_ofPositions_of_notMem hlength hnew, KeyMap.get?_insert, if_pos rfl]
        exact congrArg₂ List.cons hfirst (ih hlength (Nat.succ.inj hvalues) hnames)

end Row

/-! ### The columns of a statement of the caller -/

namespace Page

variable {view : View} {query : Query} {columns : List SqlColumn}

theorem received_of_open (hopen : view.fieldScope = .all ∨ query.callerSql?.isSome = true) :
    received view query columns =
      { view with fieldScope := .all, fields := SqlColumn.toFields columns } := by
  rw [received, if_pos]
  simpa using hopen

/-- The row of an answer whose columns are left open: its values, by position. -/
theorem ofSql_received (hopen : view.fieldScope = .all ∨ query.callerSql?.isSome = true)
    (values : List Json) :
    Row.ofSql (received view query columns) columns (.array values) =
      .ok (Row.ofPositions (SqlColumn.toFields columns).fields columns values []) := by
  rw [received_of_open hopen]
  rfl

end Page

namespace SqlColumn

theorem length_toFields (columns : List SqlColumn) :
    columns.length = (toFields columns).fields.length := by
  have hlength := congrArg List.length (sources_fieldsFrom [] columns)
  rw [List.length_map, List.length_map] at hlength
  exact hlength.symm

/-- **One field for each column, and what becomes of the names.** The fields read the columns in
their order. Their names are distinct exactly if no name that gets a number is the name of a column,
and exactly then each row of an answer whose columns are left open keeps all of its values, each
under the name of the field of its column. -/
theorem keeps_iff_apart (columns : List SqlColumn) :
    (toFields columns).fields.map (fun field => (field.originalName, field.type)) =
        columns.map (fun column => (column.name, DataType.ofBackend column.type)) ∧
      ((toFields columns).names.Nodup ↔ Apart columns) ∧
      ∀ (view : View) (query : Query),
        view.fieldScope = .all ∨ query.callerSql?.isSome = true →
        ((∀ values : List Json, values.length = columns.length →
          ∃ row, Row.ofSql (Page.received view query columns) columns (.array values) = .ok row ∧
            (toFields columns).names.map row.get? = values.map some) ↔ Apart columns) := by
  refine ⟨sources_fieldsFrom [] columns, nodup_names_iff columns, fun view query hopen => ?_⟩
  rw [← nodup_names_iff]
  constructor
  · intro hkeeps
    -- a row of different values cannot hold two of them under one name
    have hdistinct : ((List.range columns.length).map fun n => some (Json.nat n)).Nodup := by
      refine (List.nodup_map_iff fun n m heq => ?_).2 List.nodup_range
      exact Int.ofNat.inj (by simpa [Json.nat] using heq)
    obtain ⟨row, -, hrow⟩ := hkeeps ((List.range columns.length).map Json.nat) (by simp)
    rw [List.map_map] at hrow
    exact List.Nodup.of_map row.get? (hrow ▸ hdistinct)
  · intro hnames values hvalues
    exact ⟨_, Page.ofSql_received hopen values,
      Row.map_get?_ofPositions (length_toFields columns) hvalues hnames⟩

/-- Columns of the names. -/
def ofNames (names : List String) : List SqlColumn :=
  names.map fun name => { name, type := "bigint" }

/-- A view whose columns are left open. -/
def openView : View := { id := "people", fieldScope := .all }

/-- A name that comes twice is told apart, unless a third column has the name with the number. -/
theorem keeps_iff_apart_twice :
    openView.fieldScope = .all ∧
      (∀ values : List Json, values.length = 3 →
        ∃ row, Row.ofSql (Page.received openView {} (ofNames ["a", "a", "b"]))
            (ofNames ["a", "a", "b"]) (.array values) = .ok row ∧
          ["a", "a_1", "b"].map row.get? = values.map some) ∧
      ¬∀ values : List Json, values.length = 3 →
        ∃ row, Row.ofSql (Page.received openView {} (ofNames ["a", "a", "a_1"]))
            (ofNames ["a", "a", "a_1"]) (.array values) = .ok row ∧
          ["a", "a_1", "a_1"].map row.get? = values.map some := by
  have hopen : openView.fieldScope = .all ∨ (({} : Query).callerSql?.isSome = true) := .inl rfl
  refine ⟨rfl, ?_, fun hall => ?_⟩
  · exact ((keeps_iff_apart (ofNames ["a", "a", "b"])).2.2 openView {} hopen).2
      (by decide +kernel)
  · exact absurd (((keeps_iff_apart (ofNames ["a", "a", "a_1"])).2.2 openView {} hopen).1 hall)
      (by decide +kernel)

end SqlColumn

end ViewCompiler
