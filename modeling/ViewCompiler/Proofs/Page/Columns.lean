import ViewCompiler.Proofs.Page.Exposure
import ViewCompiler.Proofs.Page.Keys
import Mathlib.Data.List.Perm.Basic

/-!
# What becomes of the columns of a row

A row of the gateway takes in the values of its columns one after another, each under the name of
its column, and is then cut down to the keys that name a field.

* `SqlColumn.targets`: the keys under which the value of one column is taken in.
* `SqlColumn.lastTo`: the last value that is taken in under a key; `Row.get?_ofColumns` says that the
  key holds it, and `SqlColumn.heldBy?` names the column that it comes from.
* `SqlColumn.head?_of_lastTo`, `SqlColumn.getLast?_of_lastTo`: **a key holds the first value of the
  column that it names, or the last value of a column that is read under it.**
* `SqlColumn.heldBy?_eq_sourceName_iff`: the fields that hold the columns that they read.
* `Row.flattenWhere_of_scalars`: a row of scalars is only cut down when it is flattened.
* `Row.ShowsColumns`: the fields show the values of the columns that they read.
* `FieldSet.HoldsColumns`, `Page.showsColumns_iff`: **the columns whose values are shown in all
  pages.**
-/

namespace ViewCompiler

theorem Text.exists_of_startsWith {beginning cs : List Char} (h : startsWith beginning cs = true) :
    ∃ rest, cs = beginning ++ rest := by
  rw [startsWith] at h
  induction beginning generalizing cs with
  | nil => exact ⟨cs, rfl⟩
  | cons p ps ih =>
    cases cs with
    | nil => cases h
    | cons c cs =>
      rw [dropPrefix?] at h
      split at h
      · next heq =>
        obtain ⟨rest, rfl⟩ := ih h
        exact ⟨rest, by rw [heq, List.cons_append]⟩
      · cases h

/-- The fields that read a column. -/
def FieldSet.readers (fields : FieldSet) (column : String) : List Field :=
  fields.fields.filter fun field => field.sourceName = column

namespace SqlColumn

variable {α : Type} {fields : FieldSet} {field : Field} {name key : String} {keys : List String}
  {entries : List (String × α)} {entry : String × α}

theorem mem_copies :
    field ∈ copies fields name ↔ field ∈ fields.fields ∧
      Text.startsWith (name ++ "_").toList field.name.toList = true ∧ field.originalName = name := by
  rw [copies, List.mem_filter, Bool.and_eq_true, decide_eq_true_eq]

theorem notMem_copies (fields : FieldSet) (name : String) :
    name ∉ (copies fields name).map Field.name := by
  intro hmem
  obtain ⟨field, hfield, hname⟩ := List.mem_map.1 hmem
  obtain ⟨rest, hrest⟩ := Text.exists_of_startsWith (mem_copies.1 hfield).2.1
  have hlength := congrArg List.length hrest
  rw [hname, String.toList_append, List.length_append, List.length_append] at hlength
  have hpositive : 0 < "_".toList.length := by decide
  omega

/-- The keys under which a row that has some keys takes in the value of a column: the name of the
column if that is new, and otherwise the names of the fields that read it under names of their
own. -/
def targets (fields : FieldSet) (keys : List String) (name : String) : List String :=
  if name ∈ keys then (copies fields name).map Field.name else [name]

theorem mem_targets_self : name ∈ targets fields keys name ↔ name ∉ keys := by
  rw [targets]
  split
  · next hmem => exact iff_of_false (notMem_copies fields name) (not_not_intro hmem)
  · next hnew => exact iff_of_true (List.mem_singleton_self name) hnew

theorem mem_targets_of_ne (h : name ≠ key) :
    key ∈ targets fields keys name ↔ name ∈ keys ∧ key ∈ (copies fields name).map Field.name := by
  rw [targets]
  split
  · next hmem => exact (and_iff_right hmem).symm
  · next hnew =>
    exact iff_of_false (fun hkey => h (List.mem_singleton.1 hkey).symm) fun hboth => hnew hboth.1

/-- The last value that is taken in under a key, with the name of its column. -/
def lastTo (fields : FieldSet) (key : String) (keys : List String) :
    List (String × α) → Option (String × α)
  | [] => none
  | entry :: rest =>
    (lastTo fields key (targets fields keys entry.1 ++ keys) rest).or
      (if key ∈ targets fields keys entry.1 then some entry else none)

/-- The name of the column whose value a key holds. -/
def heldBy? (fields : FieldSet) (columns : List SqlColumn) (key : String) : Option String :=
  (lastTo fields key [] (columns.map fun column => (column.name, ()))).map Prod.fst

theorem map_fst_lastTo (fields : FieldSet) (key : String) (keys : List String)
    (entries : List (String × α)) :
    (lastTo fields key keys entries).map Prod.fst =
      (lastTo fields key keys (entries.map fun entry => (entry.1, ()))).map Prod.fst := by
  induction entries generalizing keys with
  | nil => rfl
  | cons entry rest ih =>
    rw [List.map_cons, lastTo, lastTo, Option.map_or, Option.map_or, ih]
    split <;> rfl

theorem heldBy?_eq {columns : List SqlColumn} (h : entries.map Prod.fst = columns.map SqlColumn.name)
    (key : String) : heldBy? fields columns key = (lastTo fields key [] entries).map Prod.fst := by
  have hnames : columns.map (fun column => (column.name, ())) =
      entries.map fun entry => (entry.1, ()) := by
    have hboth := congrArg (List.map fun name => (name, ())) h.symm
    rwa [List.map_map, List.map_map] at hboth
  rw [heldBy?, hnames, ← map_fst_lastTo]

/-- The last value that is taken in comes later, or it is the first one and nothing comes later. -/
theorem lastTo_cons_eq_some {first : String × α} {rest : List (String × α)}
    (h : lastTo fields key keys (first :: rest) = some entry) :
    lastTo fields key (targets fields keys first.1 ++ keys) rest = some entry ∨
      lastTo fields key (targets fields keys first.1 ++ keys) rest = none ∧
        key ∈ targets fields keys first.1 ∧ first = entry := by
  rw [lastTo, Option.or_eq_some_iff] at h
  refine h.imp_right fun hfirst => ⟨hfirst.1, ?_⟩
  by_cases hkey : key ∈ targets fields keys first.1
  · exact ⟨hkey, Option.some.inj ((if_pos hkey).symm.trans hfirst.2)⟩
  · exact absurd ((if_neg hkey).symm.trans hfirst.2) (Option.some_ne_none entry).symm

theorem mem_of_lastTo (h : lastTo fields key keys entries = some entry) : entry ∈ entries := by
  induction entries generalizing keys with
  | nil => cases h
  | cons first rest ih =>
    rcases lastTo_cons_eq_some h with hlater | ⟨-, -, rfl⟩
    · exact List.mem_cons_of_mem _ (ih hlater)
    · exact List.mem_cons_self

/-- **A key that holds a value of the column that it names holds the first one.** -/
theorem head?_of_lastTo (h : lastTo fields key keys entries = some entry) (hname : entry.1 = key) :
    key ∉ keys ∧ (entries.filter fun other => other.1 = key).head? = some entry := by
  induction entries generalizing keys with
  | nil => cases h
  | cons first rest ih =>
    rcases lastTo_cons_eq_some h with hlater | ⟨-, hkey, rfl⟩
    · obtain ⟨hnew, hhead⟩ := ih hlater
      rw [List.mem_append, not_or] at hnew
      have hfirst : first.1 ≠ key := by
        rintro rfl
        exact hnew.1 (mem_targets_self.2 hnew.2)
      refine ⟨hnew.2, ?_⟩
      rw [List.filter_cons_of_neg (by simpa using hfirst)]
      exact hhead
    · subst hname
      refine ⟨mem_targets_self.1 hkey, ?_⟩
      rw [List.filter_cons_of_pos (by simp), List.head?_cons]

/-- Nothing is taken in under a key only if no column comes again that is read under it. -/
theorem notMem_copies_of_lastTo (h : lastTo fields key keys entries = none) (hentry : entry ∈ entries)
    (hkeys : entry.1 ∈ keys) : key ∉ (copies fields entry.1).map Field.name := by
  induction entries generalizing keys with
  | nil => exact absurd hentry List.not_mem_nil
  | cons first rest ih =>
    rw [lastTo, Option.or_eq_none_iff] at h
    obtain ⟨hlater, hhere⟩ := h
    rcases List.mem_cons.1 hentry with rfl | hentry
    · intro hkey
      rw [targets, if_pos hkeys, if_pos hkey] at hhere
      cases hhere
    · exact ih hlater hentry (List.mem_append_right _ hkeys)

/-- **A key that holds a value of another column holds the last one.** -/
theorem getLast?_of_lastTo (h : lastTo fields key keys entries = some entry) (hname : entry.1 ≠ key) :
    (entries.filter fun other => other.1 = entry.1).getLast? = some entry := by
  induction entries generalizing keys with
  | nil => cases h
  | cons first rest ih =>
    rcases lastTo_cons_eq_some h with hlater | ⟨hnone, hkey, rfl⟩
    · rw [List.filter_cons]
      split
      · rw [List.getLast?_cons, ih hlater]
        rfl
      · exact ih hlater
    · obtain ⟨hkeys, hcopies⟩ := (mem_targets_of_ne hname).1 hkey
      -- the column would be taken in under the key if it came once more
      have hend : rest.filter (fun other => other.1 = first.1) = [] := by
        refine List.filter_eq_nil_iff.2 fun other hother heq => ?_
        have heq : other.1 = first.1 := of_decide_eq_true heq
        refine notMem_copies_of_lastTo hnone hother ?_ (heq ▸ hcopies)
        exact List.mem_append_right _ (heq ▸ hkeys)
      rw [List.filter_cons_of_pos (by simp), hend]
      rfl

/-! #### Fields with other names -/

theorem lastTo_ne_none_of_mem (hkey : key ∉ keys) (hmem : key ∈ entries.map Prod.fst) :
    lastTo fields key keys entries ≠ none := by
  induction entries generalizing keys with
  | nil => exact absurd hmem List.not_mem_nil
  | cons first rest ih =>
    rw [lastTo, Ne, Option.or_eq_none_iff]
    rintro ⟨hlater, hhere⟩
    by_cases htarget : key ∈ targets fields keys first.1
    · rw [if_pos htarget] at hhere
      cases hhere
    · refine ih ?_ ?_ hlater
      · exact fun hmem => (List.mem_append.1 hmem).elim htarget hkey
      · rcases List.mem_cons.1 hmem with rfl | hrest
        · exact absurd (mem_targets_self.2 hkey) htarget
        · exact hrest

theorem lastTo_ne_none_of_twice (hkey : key ∈ (copies fields name).map Field.name)
    (htwice : 2 ≤ (entries.map Prod.fst).count name) : lastTo fields key keys entries ≠ none := by
  induction entries generalizing keys with
  | nil => simp at htwice
  | cons first rest ih =>
    rw [lastTo, Ne, Option.or_eq_none_iff]
    rintro ⟨hlater, -⟩
    rw [List.map_cons, List.count_cons] at htwice
    by_cases hname : first.1 = name
    · subst hname
      have hagain : first.1 ∈ rest.map Prod.fst := by
        rw [← List.count_pos_iff]
        simp only [beq_self_eq_true, if_true] at htwice
        omega
      obtain ⟨other, hother, heq⟩ := List.mem_map.1 hagain
      refine notMem_copies_of_lastTo hlater hother ?_ (heq ▸ hkey)
      rw [heq, List.mem_append, mem_targets_self]
      exact (em (first.1 ∈ keys)).symm
    · rw [if_neg (by simpa using hname), Nat.add_zero] at htwice
      exact ih htwice hlater

/-- A column whose value is taken in under another name has come before. -/
theorem twice_of_lastTo (hplain : ∀ one ∈ entries, ∀ other ∈ entries,
      other.1 ∉ (copies fields one.1).map Field.name)
    (h : lastTo fields key keys entries = some entry) (hname : entry.1 ≠ key) :
    entry.1 ∈ keys ∨ 2 ≤ (entries.map Prod.fst).count entry.1 := by
  induction entries generalizing keys with
  | nil => cases h
  | cons first rest ih =>
    rcases lastTo_cons_eq_some h with hlater | ⟨-, hkey, rfl⟩
    · have hentry := mem_of_lastTo hlater
      have hrest := ih (fun one hone other hother => hplain one (List.mem_cons_of_mem _ hone) other
        (List.mem_cons_of_mem _ hother)) hlater
      rw [List.map_cons, List.count_cons]
      rcases hrest with hmem | htwice
      · rcases List.mem_append.1 hmem with htarget | hkeys
        · by_cases hfirst : first.1 = entry.1
          · have hcount := List.count_pos_iff.2 (List.mem_map_of_mem (f := Prod.fst) hentry)
            rw [if_pos (by simpa using hfirst)]
            exact .inr (by omega)
          · exact absurd ((mem_targets_of_ne hfirst).1 htarget).2
              (hplain first List.mem_cons_self entry (List.mem_cons_of_mem _ hentry))
        · exact .inl hkeys
      · exact .inr (by omega)
    · exact .inl ((mem_targets_of_ne hname).1 hkey).1

/-- Under a key stands the column that it names or one that a field of this name reads. -/
theorem mem_copies_of_lastTo (h : lastTo fields key keys entries = some entry)
    (hname : entry.1 ≠ key) : key ∈ (copies fields entry.1).map Field.name := by
  induction entries generalizing keys with
  | nil => cases h
  | cons first rest ih =>
    rcases lastTo_cons_eq_some h with hlater | ⟨-, hkey, rfl⟩
    · exact ih hlater
    · exact ((mem_targets_of_ne hname).1 hkey).2

/-- Columns have names, and no column has the name of a field that reads another one. -/
def Plain (fields : FieldSet) (columns : List SqlColumn) : Prop :=
  ∀ column ∈ columns, column.name ≠ "" ∧
    ∀ field ∈ fields.fields, field.name = column.name → field.sourceName = column.name

theorem sourceName_of_mem_copies (hname : name ≠ "") (h : field ∈ copies fields name) :
    field.sourceName = name := by
  have horiginal := (mem_copies.1 h).2.2
  rw [Field.sourceName, horiginal, if_neg hname]

theorem Plain.notMem_copies {columns : List SqlColumn} (h : Plain fields columns)
    {first second : SqlColumn} (hfirst : first ∈ columns) (hsecond : second ∈ columns) :
    second.name ∉ (copies fields first.name).map Field.name := by
  intro hmem
  obtain ⟨copy, hcopy, hname⟩ := List.mem_map.1 hmem
  have hown := (h second hsecond).2 copy (mem_copies.1 hcopy).1 hname
  rw [sourceName_of_mem_copies (h first hfirst).1 hcopy] at hown
  exact SqlColumn.notMem_copies fields first.name (hown ▸ hmem)

/-- **A field holds its column** if it bears its name, or if its name starts with it and the column
comes twice. -/
theorem heldBy?_eq_sourceName_iff {columns : List SqlColumn} (hnames : fields.names.Nodup)
    (hplain : Plain fields columns) (hfield : field ∈ fields.fields)
    (hreturned : field.sourceName ∈ columns.map SqlColumn.name) :
    heldBy? fields columns field.name = some field.sourceName ↔
      field.name = field.sourceName ∨
        Text.startsWith (field.sourceName ++ "_").toList field.name.toList = true ∧
          2 ≤ (columns.map SqlColumn.name).count field.sourceName := by
  have hfst : (columns.map fun column => (column.name, ())).map Prod.fst =
      columns.map SqlColumn.name := List.map_map
  have hcopies : ∀ one ∈ columns.map fun column => (column.name, ()),
      ∀ other ∈ columns.map fun column => (column.name, ()),
        other.1 ∉ (copies fields one.1).map Field.name :=
    List.forall_mem_map.2 fun _ hfirst => List.forall_mem_map.2 fun _ hsecond =>
      hplain.notMem_copies hfirst hsecond
  rw [heldBy?, Option.map_eq_some_iff]
  constructor
  · rintro ⟨entry, hlast, hsource⟩
    by_cases hname : entry.1 = field.name
    · exact .inl (hname.symm.trans hsource)
    · obtain ⟨copy, hcopy, hcopyName⟩ := List.mem_map.1 (mem_copies_of_lastTo hlast hname)
      have hstarts := (mem_copies.1 hcopy).2.1
      have htwice := (twice_of_lastTo hcopies hlast hname).resolve_left List.not_mem_nil
      rw [hcopyName, hsource] at hstarts
      rw [hfst, hsource] at htwice
      exact .inr ⟨hstarts, htwice⟩
  · intro hserved
    have hsome : lastTo fields field.name []
        (columns.map fun column => (column.name, ())) ≠ none := by
      by_cases hname : field.name = field.sourceName
      · exact lastTo_ne_none_of_mem List.not_mem_nil (hfst ▸ hname ▸ hreturned)
      · obtain ⟨hstarts, htwice⟩ := hserved.resolve_left hname
        refine lastTo_ne_none_of_twice (List.mem_map_of_mem (mem_copies.2 ⟨hfield, hstarts, ?_⟩))
          (hfst ▸ htwice)
        rw [Field.sourceName] at hname ⊢
        split at hname
        · exact absurd rfl hname
        · next horiginal => rw [if_neg horiginal]
    obtain ⟨entry, hlast⟩ := Option.ne_none_iff_exists'.1 hsome
    obtain ⟨column, hcolumn, rfl⟩ := List.mem_map.1 (mem_of_lastTo hlast)
    refine ⟨_, hlast, ?_⟩
    by_cases hname : column.name = field.name
    · exact ((hplain column hcolumn).2 field hfield hname.symm).symm
    · obtain ⟨copy, hcopy, hcopyName⟩ := List.mem_map.1 (mem_copies_of_lastTo hlast hname)
      obtain rfl : copy = field :=
        List.inj_on_of_nodup_map hnames (mem_copies.1 hcopy).1 hfield hcopyName
      exact (sourceName_of_mem_copies (hplain column hcolumn).1 hcopy).symm

end SqlColumn

/-- Each field whose column is returned holds this column.  Of the columns that are returned as
often as they are read none is returned more than twice, and one that is returned twice is read by
one field of its name. -/
structure FieldSet.HoldsColumns (fields : FieldSet) (columns : List SqlColumn) : Prop where
  each : ∀ field ∈ fields.fields, field.sourceName ∈ columns.map SqlColumn.name →
    SqlColumn.heldBy? fields columns field.name = some field.sourceName
  few : ∀ name, (fields.readers name).length = (columns.map SqlColumn.name).count name →
    (columns.map SqlColumn.name).count name ≤ 2 ∧
      ((columns.map SqlColumn.name).count name = 2 →
        ((fields.readers name).filter fun field => field.name = name).length = 1)

/-! ### First and last values -/

section

variable {α β : Type} {readers : List β} {values : List α} {named : β → Bool}

/-- One or two readers of the first and the last value get all values, if one of two reads the
first. -/
theorem perm_ends (hlength : readers.length = values.length) (hfew : values.length ≤ 2)
    (htwo : values.length = 2 → (readers.filter named).length = 1) :
    (readers.map fun reader => if named reader then values.head? else values.getLast?).Perm
      (values.map some) := by
  obtain hzero | hone | hpair : values.length = 0 ∨ values.length = 1 ∨ values.length = 2 := by omega
  · rw [List.length_eq_zero_iff.1 hzero] at hlength ⊢
    rw [List.length_eq_zero_iff.1 hlength]
    exact List.Perm.nil
  · obtain ⟨value, rfl⟩ := List.length_eq_one_iff.1 hone
    obtain ⟨reader, rfl⟩ := List.length_eq_one_iff.1 hlength
    simp
  · have hcount := htwo hpair
    obtain ⟨first, last, rfl⟩ := List.length_eq_two.1 hpair
    obtain ⟨reader, other, rfl⟩ := List.length_eq_two.1 hlength
    cases hreader : named reader <;> cases hother : named other
    · simp [hreader, hother] at hcount
    · simpa [hreader, hother] using List.Perm.swap (some first) (some last) []
    · simp [hreader, hother]
    · simp [hreader, hother] at hcount

/-- Readers of the first and the last of different values get all of them only if there are at most
two, and one of two readers reads the first. -/
theorem few_of_perm_ends (hnodup : values.Nodup)
    (h : (readers.map fun reader => if named reader then values.head? else values.getLast?).Perm
      (values.map some)) :
    values.length ≤ 2 ∧ (values.length = 2 → (readers.filter named).length = 1) := by
  have hends : ∀ value ∈ values, values.head? = some value ∨ values.getLast? = some value := by
    intro value hvalue
    obtain ⟨reader, -, hreads⟩ := List.mem_map.1 (h.mem_iff.2 (List.mem_map_of_mem hvalue))
    split at hreads
    · exact .inl hreads
    · exact .inr hreads
  match values with
  | [] => exact ⟨by simp, by simp⟩
  | [value] => exact ⟨by simp, by simp⟩
  | [first, last] =>
    refine ⟨le_refl 2, fun _ => ?_⟩
    have hne : first ≠ last := by simpa using hnodup
    have hpair : readers.length = 2 := by simpa using h.length_eq
    obtain ⟨reader, other, rfl⟩ := List.length_eq_two.1 hpair
    cases hreader : named reader <;> cases hother : named other
    · have hfirst := (h.mem_iff (a := some first)).2 (by simp)
      simp [hreader, hother, hne] at hfirst
    · simp [hreader, hother]
    · simp [hreader, hother]
    · have hlast := (h.mem_iff (a := some last)).2 (by simp)
      simp [hreader, hother, hne.symm] at hlast
  | first :: middle :: last :: rest =>
    -- the second of three values is neither the first nor the last
    obtain ⟨hfirst, hmiddle⟩ := List.nodup_cons.1 hnodup
    rcases hends middle (by simp) with hhead | hlast
    · obtain rfl := Option.some.inj hhead
      exact absurd List.mem_cons_self hfirst
    · rw [List.getLast?_cons_cons, List.getLast?_cons_cons] at hlast
      exact absurd (List.mem_of_getLast? hlast) (List.nodup_cons.1 hmiddle).1

end

namespace Row

open KeyMap (Ordered)
open SqlColumn (targets lastTo heldBy? copies)

variable {fields : FieldSet} {columns : List SqlColumn} {cells : List Json} {row : Row}
  {field : Field} {key name : String} {value : Json}

/-! ### Rows as they are taken in -/

theorem get?_foldl_insert_names (copies : List Field) (row : Row) (value : Json) (key : String) :
    KeyMap.get? (copies.foldl (fun row field => row.insert field.name value) row) key =
      if key ∈ copies.map Field.name then some value else row.get? key := by
  induction copies generalizing row with
  | nil => rfl
  | cons field rest ih =>
    rw [List.foldl_cons, ih, KeyMap.get?_insert, List.map_cons]
    by_cases hrest : key ∈ rest.map Field.name
    · rw [if_pos hrest, if_pos (List.mem_cons_of_mem _ hrest)]
    · rw [if_neg hrest]
      by_cases hname : field.name = key
      · rw [if_pos hname, if_pos (hname ▸ List.mem_cons_self)]
      · rw [if_neg hname, if_neg fun hmem => (List.mem_cons.1 hmem).elim (fun h => hname h.symm) hrest]

/-- **A key of a row holds the last value that is taken in under it.** -/
theorem get?_ofColumns {keys : List String} (hkeys : ∀ key, key ∈ keys ↔ row.contains key = true) :
    KeyMap.get? (ofColumns fields columns cells row) key =
      ((lastTo fields key keys ((columns.map SqlColumn.name).zip cells)).map Prod.snd).or
        (row.get? key) := by
  induction columns generalizing cells row keys with
  | nil => rfl
  | cons column columns ih =>
    cases cells with
    | nil => rfl
    | cons value cells =>
      rw [ofColumns, List.map_cons, List.zip_cons_cons, lastTo]
      -- the row has then the keys that the value is taken in under
      have hget (key : String) : KeyMap.get? (if row.contains column.name then
          (copies fields column.name).foldl (fun row field => row.insert field.name value) row
          else row.insert column.name value) key =
            if key ∈ targets fields keys column.name then some value else row.get? key := by
        by_cases hold : row.contains column.name = true
        · rw [if_pos hold, targets, if_pos ((hkeys _).2 hold), get?_foldl_insert_names]
        · rw [if_neg hold, targets, if_neg (mt (hkeys _).1 hold), KeyMap.get?_insert]
          simp only [List.mem_singleton, eq_comm]
      rw [ih fun key => ?_, hget]
      · cases lastTo fields key _ _ with
        | some entry => rfl
        | none => split <;> rfl
      · rw [List.mem_append, hkeys, KeyMap.contains, KeyMap.contains, hget]
        split <;> simp [*]

theorem ordered_foldl_insert_names (hrow : Ordered row) (copies : List Field) (value : Json) :
    Ordered (copies.foldl (fun row field => row.insert field.name value) row) := by
  induction copies generalizing row with
  | nil => exact hrow
  | cons field rest ih => exact ih (hrow.insert field.name value)

theorem ordered_ofColumns (hrow : Ordered row) : Ordered (ofColumns fields columns cells row) := by
  induction columns generalizing cells row with
  | nil => exact hrow
  | cons column columns ih =>
    cases cells with
    | nil => exact hrow
    | cons value cells =>
      refine ih ?_
      split
      · exact ordered_foldl_insert_names hrow _ value
      · exact hrow.insert column.name value

theorem arrivals_of_scalars (h : ∀ entry ∈ row, entry.2.isContainer = false) : arrivals row = row := by
  have hsingle : ∀ entry ∈ row, arrivalsAt entry.1 entry.2 = [entry] := by
    intro entry hentry
    obtain ⟨key, value⟩ := entry
    have hscalar := h _ hentry
    cases value with
    | array | object => cases hscalar
    | _ => rfl
  rw [arrivals, List.flatMap_congr hsingle, List.flatMap_singleton']

theorem ordered_foldl_place (hrow : Ordered row) (keep : String → Bool)
    (arrivals : List (String × Json)) : Ordered (arrivals.foldl (place keep) row) := by
  induction arrivals generalizing row with
  | nil => exact hrow
  | cons arrival rest ih => exact ih (ordered_place hrow keep arrival)

/-- A row of scalars is flat already, so that flattening only chooses its keys. -/
theorem flattenWhere_of_scalars (keep : String → Bool) (hrow : Ordered row)
    (h : ∀ entry ∈ row, entry.2.isContainer = false) : flattenWhere keep row = restrict keep row := by
  have hkeys : (row.map Prod.fst).Nodup := List.pairwise_map.2 (hrow.imp ne_of_lt)
  have hplaced : row.foldl (place fun _ => true) [] = row := by
    refine List.Perm.eq_of_pairwise ?_ (ordered_foldl_place KeyMap.ordered_nil _ row) hrow
      (@perm_foldl_place [] row hkeys)
    intro first second _ _ hlt hgt
    exact absurd (hlt.trans hgt) (lt_irrefl _)
  rw [flattenWhere_eq, arrivals_of_scalars h]
  exact (restrict_foldl_place KeyMap.ordered_nil keep row).symm.trans (congrArg _ hplaced)

theorem get?_ofColumns_empty (fields : FieldSet) (columns : List SqlColumn) (cells : List Json)
    (key : String) :
    KeyMap.get? (ofColumns fields columns cells []) key =
      (lastTo fields key [] ((columns.map SqlColumn.name).zip cells)).map Prod.snd := by
  have hkeys : ∀ key, key ∈ ([] : List String) ↔ KeyMap.contains ([] : Row) key = true := by
    simp [KeyMap.contains]
  rw [get?_ofColumns hkeys, KeyMap.get?_nil, Option.or_none]

theorem mem_cells_of_ofColumns (h : KeyMap.get? (ofColumns fields columns cells []) key = some value) :
    value ∈ cells := by
  rw [get?_ofColumns_empty, Option.map_eq_some_iff] at h
  obtain ⟨entry, hlast, rfl⟩ := h
  exact (List.of_mem_zip (SqlColumn.mem_of_lastTo hlast)).2

/-! ### Rows as they are shown -/

/-- The values of a row in the columns with a name, in order. -/
def cellsOf (columns : List SqlColumn) (cells : List Json) (name : String) : List Json :=
  (((columns.map SqlColumn.name).zip cells).filter fun entry => entry.1 = name).map Prod.snd

/-- The fields show the values of the columns that they read. -/
structure ShowsColumns (row : Row) (fields : FieldSet) (columns : List SqlColumn)
    (cells : List Json) : Prop where
  /-- A field whose column is returned shows a value of this column. -/
  each : ∀ field ∈ fields.fields, field.sourceName ∈ columns.map SqlColumn.name →
    ∃ value ∈ cellsOf columns cells field.sourceName, row.get? field.name = some value
  /-- If a column is returned as often as it is read, the fields that read it show all its values. -/
  all : ∀ name, (fields.readers name).length = (columns.map SqlColumn.name).count name →
    ((fields.readers name).map fun field => row.get? field.name).Perm
      ((cellsOf columns cells name).map some)

section

variable (hlength : cells.length = columns.length)

include hlength

theorem map_fst_zip_names :
    ((columns.map SqlColumn.name).zip cells).map Prod.fst = columns.map SqlColumn.name :=
  List.map_fst_zip (by rw [List.length_map, hlength])

theorem map_snd_zip_names : ((columns.map SqlColumn.name).zip cells).map Prod.snd = cells :=
  List.map_snd_zip (by rw [List.length_map, hlength])

theorem length_cellsOf (name : String) :
    (cellsOf columns cells name).length = (columns.map SqlColumn.name).count name := by
  have hcount : (columns.map SqlColumn.name).count name =
      (((columns.map SqlColumn.name).zip cells).map Prod.fst).count name := by
    rw [map_fst_zip_names hlength]
  rw [hcount, List.count_eq_countP, List.countP_map, List.countP_eq_length_filter, cellsOf,
    List.length_map]
  rfl

/-- **What a key holds of a column**: the first value if it names the column, or else the last. -/
theorem exists_lastTo_of_heldBy? (h : heldBy? fields columns key = some name) :
    ∃ value, lastTo fields key [] ((columns.map SqlColumn.name).zip cells) = some (name, value) ∧
      (if key = name then (cellsOf columns cells name).head?
        else (cellsOf columns cells name).getLast?) = some value := by
  rw [SqlColumn.heldBy?_eq (map_fst_zip_names hlength), Option.map_eq_some_iff] at h
  obtain ⟨⟨name, value⟩, hlast, rfl⟩ := h
  refine ⟨value, hlast, ?_⟩
  split
  · next hname =>
    subst hname
    rw [cellsOf, List.head?_map, (SqlColumn.head?_of_lastTo hlast rfl).2]
    rfl
  · next hname =>
    rw [cellsOf, List.getLast?_map, SqlColumn.getLast?_of_lastTo hlast (Ne.symm hname)]
    rfl

theorem name_eq_of_mem_cellsOf (hcells : cells.Nodup) {entry : String × Json}
    (hentry : entry ∈ (columns.map SqlColumn.name).zip cells)
    (hvalue : entry.2 ∈ cellsOf columns cells name) : entry.1 = name := by
  obtain ⟨other, hother, heq⟩ := List.mem_map.1 hvalue
  obtain ⟨hmem, hname⟩ := List.mem_filter.1 hother
  have hnodup : (((columns.map SqlColumn.name).zip cells).map Prod.snd).Nodup := by
    rwa [map_snd_zip_names hlength]
  rw [← List.inj_on_of_nodup_map hnodup hmem hentry heq]
  exact of_decide_eq_true hname

theorem nodup_cellsOf (hcells : cells.Nodup) (name : String) :
    (cellsOf columns cells name).Nodup := by
  have hsublist : (cellsOf columns cells name).Sublist cells := by
    have hmap := (List.filter_sublist (p := fun entry => decide (entry.1 = name))
      (l := (columns.map SqlColumn.name).zip cells)).map Prod.snd
    rwa [map_snd_zip_names hlength] at hmap
  exact hsublist.nodup hcells

variable (hrow : ∀ field ∈ fields.fields, row.get? field.name =
  (lastTo fields field.name [] ((columns.map SqlColumn.name).zip cells)).map Prod.snd)

include hrow

/-- A field that holds its column shows the first value if it bears its name, or else the last. -/
theorem get?_of_heldBy? (hfield : field ∈ fields.fields)
    (h : heldBy? fields columns field.name = some name) :
    row.get? field.name = if field.name = name then (cellsOf columns cells name).head?
      else (cellsOf columns cells name).getLast? := by
  obtain ⟨value, hlast, hvalue⟩ := exists_lastTo_of_heldBy? hlength h
  rw [hrow field hfield, hlast, hvalue]
  rfl

theorem heldBy?_of_get? (hcells : cells.Nodup) (hfield : field ∈ fields.fields)
    (hvalue : value ∈ cellsOf columns cells name) (hget : row.get? field.name = some value) :
    heldBy? fields columns field.name = some name := by
  rw [hrow field hfield, Option.map_eq_some_iff] at hget
  obtain ⟨entry, hlast, rfl⟩ := hget
  rw [SqlColumn.heldBy?_eq (map_fst_zip_names hlength), hlast,
    ← name_eq_of_mem_cellsOf hlength hcells (SqlColumn.mem_of_lastTo hlast) hvalue]
  rfl

/-- The fields that read a column show the first and the last of its values, if they hold it. -/
theorem map_get?_readers
    (h : ∀ field ∈ fields.readers name, heldBy? fields columns field.name = some name) :
    ((fields.readers name).map fun field => row.get? field.name) =
      (fields.readers name).map fun field =>
        if decide (field.name = name) then (cellsOf columns cells name).head?
        else (cellsOf columns cells name).getLast? := by
  refine List.map_congr_left fun field hfield => ?_
  rw [get?_of_heldBy? hlength hrow (List.mem_filter.1 hfield).1 (h field hfield)]
  simp only [decide_eq_true_eq]

theorem showsColumns (h : fields.HoldsColumns columns) : row.ShowsColumns fields columns cells where
  each field hfield hsource := by
    have hheld := h.each field hfield hsource
    obtain ⟨value, -, hvalue⟩ := exists_lastTo_of_heldBy? hlength hheld
    refine ⟨value, ?_, (get?_of_heldBy? hlength hrow hfield hheld).trans hvalue⟩
    split at hvalue
    · exact List.mem_of_head? hvalue
    · exact List.mem_of_getLast? hvalue
  all name hcount := by
    have hheld : ∀ field ∈ fields.readers name, heldBy? fields columns field.name = some name := by
      intro field hreader
      obtain ⟨hfield, hsource⟩ := List.mem_filter.1 hreader
      obtain rfl : field.sourceName = name := of_decide_eq_true hsource
      refine h.each field hfield (List.count_pos_iff.1 ?_)
      exact hcount ▸ List.length_pos_of_mem hreader
    obtain ⟨hfew, htwo⟩ := h.few name hcount
    rw [← length_cellsOf hlength name] at hcount hfew htwo
    rw [map_get?_readers hlength hrow hheld]
    exact perm_ends hcount hfew htwo

theorem holdsColumns (hcells : cells.Nodup) (h : row.ShowsColumns fields columns cells) :
    fields.HoldsColumns columns where
  each field hfield hsource := by
    obtain ⟨value, hvalue, hget⟩ := h.each field hfield hsource
    exact heldBy?_of_get? hlength hrow hcells hfield hvalue hget
  few name hcount := by
    have hperm := h.all name hcount
    have hheld : ∀ field ∈ fields.readers name, heldBy? fields columns field.name = some name := by
      intro field hreader
      obtain ⟨value, hvalue, hget⟩ :=
        List.mem_map.1 (hperm.mem_iff.1 (List.mem_map_of_mem hreader))
      exact heldBy?_of_get? hlength hrow hcells (List.mem_filter.1 hreader).1 hvalue hget.symm
    rw [map_get?_readers hlength hrow hheld] at hperm
    rw [← length_cellsOf hlength name]
    exact few_of_perm_ends (nodup_cellsOf hlength hcells name) hperm

end

end Row

/-! ### Pages -/

/-- The query asks a view without SQL nodes for flat rows of its declared fields, and has neither a
statement of its own nor access rules nor wishes. -/
structure Query.AsksDeclared (query : Query) (view : View) : Prop where
  indexed : view.fields.Indexed
  scope : view.fieldScope = .declared
  node : view.hasSqlNode = false
  statement : query.callerSql? = none
  rules : query.rules = []
  outputs : query.outputFields = []
  format : query.format = .flat

namespace Page

variable {view : View} {query : Query} {answer : SqlAnswer} {rows : List (List Json)}

theorem shapeAll_map_eq_ok {α β : Type} {shape : α → Except RowError Row} {make : β → α}
    {result : β → Row} {items : List β} (h : ∀ item ∈ items, shape (make item) = .ok (result item)) :
    shapeAll shape (items.map make) = .ok (items.map result) := by
  rw [shapeAll, gather, List.map_map]
  split
  · have hresults : items.map (shape ∘ make) = items.map fun item => .ok (result item) :=
      List.map_congr_left h
    rw [hresults, List.filterMap_map]
    exact congrArg Except.ok (congrFun List.filterMap_eq_map items)
  · next first rest hfailures =>
    have hfirst := hfailures ▸ List.mem_cons_self (a := first) (l := rest)
    obtain ⟨shaped, hshaped, hfailed⟩ := List.mem_filterMap.1 hfirst
    obtain ⟨item, hitem, rfl⟩ := List.mem_map.1 hshaped
    rw [Function.comp_apply, h item hitem] at hfailed
    cases hfailed

theorem exists_ofSql (h : query.AsksDeclared view) (hrows : answer.rows = rows.map .array)
    (total : Option Nat) :
    ∃ page, (ofSql view view.fields query answer total).1 = .ok page ∧
      page.rows = rows.map fun cells => Row.flattenWhere view.fields.contains
        (Row.ofColumns view.fields answer.columns cells []) := by
  have hreceived : received view query answer.columns = view := by
    simp [received, h.scope, h.statement, h.node]
  have hvisible : visible view query view.fields = view.fields := by
    simp [visible, h.scope, h.node]
  have hexposure : (Exposure.ofNames view.fields query.outputFields).fields = view.fields := by
    simp [Exposure.ofNames, h.outputs]
  rw [ofSql, hreceived, hvisible, hrows]
  refine ⟨_, Result.map_eq_ok.2 ⟨_, shapeAll_map_eq_ok fun cells _ => ?_, rfl⟩, rfl⟩
  simp only [Row.ofSql, h.scope, h.format, Exposure.shape, Exposure.withoutMeta, hexposure]
  rfl

theorem get?_flattened (hindexed : view.fields.Indexed) {columns : List SqlColumn}
    {cells : List Json} (hscalar : ∀ cell ∈ cells, cell.isContainer = false) {field : Field}
    (hfield : field ∈ view.fields.fields) :
    KeyMap.get? (Row.flattenWhere view.fields.contains (Row.ofColumns view.fields columns cells []))
        field.name =
      (SqlColumn.lastTo view.fields field.name []
        ((columns.map SqlColumn.name).zip cells)).map Prod.snd := by
  have hordered : KeyMap.Ordered (Row.ofColumns view.fields columns cells []) :=
    Row.ordered_ofColumns KeyMap.ordered_nil
  have hcontains : view.fields.contains field.name = true :=
    hindexed.contains_iff.2 (List.mem_map_of_mem hfield)
  rw [Row.flattenWhere_of_scalars _ hordered fun entry hentry =>
      hscalar _ (Row.mem_cells_of_ofColumns (hordered.get?_of_mem hentry)),
    Row.restrict, KeyMap.get?_filter, if_pos hcontains, Row.get?_ofColumns_empty]

theorem exists_nodup_cells (n : Nat) :
    ∃ cells : List Json, cells.length = n ∧ cells.Nodup ∧
      ∀ cell ∈ cells, cell.isContainer = false := by
  refine ⟨(List.range n).map fun i => .string (String.ofList (List.replicate i 'x')), ?_, ?_, ?_⟩
  · rw [List.length_map, List.length_range]
  · refine List.nodup_range.map fun i j heq => ?_
    have hlists := String.ofList_injective (Json.string.inj heq)
    simpa using congrArg List.length hlists
  · exact List.forall_mem_map.2 fun _ _ => rfl

/-- **The fields show the columns that they read in all pages exactly if they hold them.**  A field
whose column is returned then shows one of its values, and if a column is returned as often as it is
read, its values are all shown.  In a plain answer a field holds its column if it bears its name, or
if its name starts with it and the column comes twice. -/
theorem showsColumns_iff (view : View) (query : Query) (columns : List SqlColumn)
    (h : query.AsksDeclared view) :
    ((∀ (answer : SqlAnswer) (total : Option Nat) (rows : List (List Json)),
        answer.columns = columns → answer.rows = rows.map .array →
        (∀ cells ∈ rows, cells.length = columns.length ∧
          ∀ cell ∈ cells, cell.isContainer = false) →
        ∃ page, (ofSql view view.fields query answer total).1 = .ok page ∧
          List.Forall₂ (fun cells row => Row.ShowsColumns row view.fields columns cells)
            rows page.rows) ↔
      view.fields.HoldsColumns columns) ∧
    (view.fields.names.Nodup → SqlColumn.Plain view.fields columns →
      ∀ field ∈ view.fields.fields, field.sourceName ∈ columns.map SqlColumn.name →
        (SqlColumn.heldBy? view.fields columns field.name = some field.sourceName ↔
          field.name = field.sourceName ∨
            Text.startsWith (field.sourceName ++ "_").toList field.name.toList = true ∧
              2 ≤ (columns.map SqlColumn.name).count field.sourceName)) := by
  refine ⟨⟨fun hall => ?_, fun hholds answer total rows hcolumns hrows hcells => ?_⟩,
    fun hnames hplain field hfield hreturned =>
      SqlColumn.heldBy?_eq_sourceName_iff hnames hplain hfield hreturned⟩
  · -- a row of different values tells which column each field holds
    obtain ⟨cells, hlength, hnodup, hscalar⟩ := exists_nodup_cells columns.length
    obtain ⟨answer, hcolumns, hrows⟩ : ∃ answer : SqlAnswer,
        answer.columns = columns ∧ answer.rows = [cells].map .array :=
      ⟨{ columns, rows := [.array cells] }, rfl, rfl⟩
    obtain ⟨page, hpage, hshows⟩ := hall answer none [cells] hcolumns hrows
      (List.forall_mem_singleton.2 ⟨hlength, hscalar⟩)
    obtain ⟨other, hother, hrow⟩ := exists_ofSql h hrows none
    obtain rfl := Except.ok.inj (hpage.symm.trans hother)
    rw [hrow, List.forall₂_map_right_iff, List.forall₂_same, hcolumns] at hshows
    exact Row.holdsColumns hlength (fun field => get?_flattened h.indexed hscalar) hnodup
      (hshows cells List.mem_cons_self)
  · obtain ⟨page, hpage, hpageRows⟩ := exists_ofSql h hrows total
    refine ⟨page, hpage, ?_⟩
    rw [hpageRows, List.forall₂_map_right_iff, List.forall₂_same]
    intro cells hmem
    obtain ⟨hlength, hscalar⟩ := hcells cells hmem
    rw [hcolumns]
    exact Row.showsColumns hlength (fun field => get?_flattened h.indexed hscalar) hholds

/-- A field with another name than its column, and two fields that read the same one. -/
def ofRenamed : View where
  id := "people"
  fieldScope := .declared
  fields := .ofList
    [{ name := "user", originalName := "uid" }, { name := "id" },
      { name := "id_b", originalName := "id" }]

/-- The columns that the three fields read. -/
def usersAndPairs : List SqlColumn := [⟨"uid", "bigint"⟩, ⟨"id", "bigint"⟩, ⟨"id", "bigint"⟩]

/-- A column that is read under another name and comes once is not shown; one that comes twice is
shown under the second name too. -/
theorem showsColumns_iff_renamed :
    Query.AsksDeclared {} ofRenamed ∧
    (¬∀ (answer : SqlAnswer) (total : Option Nat) (rows : List (List Json)),
      answer.columns = usersAndPairs → answer.rows = rows.map .array →
      (∀ cells ∈ rows, cells.length = 3 ∧ ∀ cell ∈ cells, cell.isContainer = false) →
      ∃ page, (ofSql ofRenamed ofRenamed.fields {} answer total).1 = .ok page ∧
        List.Forall₂ (fun cells row =>
          Row.ShowsColumns row ofRenamed.fields usersAndPairs cells) rows page.rows) ∧
    SqlColumn.heldBy? ofRenamed.fields usersAndPairs "id_b" = some "id" := by
  have hasks : Query.AsksDeclared {} ofRenamed := ⟨rfl, rfl, rfl, rfl, rfl, rfl, rfl⟩
  have hplain : SqlColumn.Plain ofRenamed.fields usersAndPairs := by
    unfold SqlColumn.Plain
    decide
  obtain ⟨hshows, hholds⟩ := showsColumns_iff ofRenamed {} usersAndPairs hasks
  have hheld := hholds (by decide) hplain
  refine ⟨hasks, fun hall => ?_, ?_⟩
  · have huser := (hshows.1 hall).each { name := "user", originalName := "uid" }
      (by decide) (by decide)
    exact absurd ((hheld _ (by decide) (by decide)).1 huser) (by decide)
  · exact (hheld { name := "id_b", originalName := "id" } (by decide) (by decide)).2
      (.inr (by decide))

end Page

end ViewCompiler
