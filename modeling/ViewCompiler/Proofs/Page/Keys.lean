import ViewCompiler.Proofs.Json.Record
import ViewCompiler.Proofs.Page.Flattening
import ViewCompiler.Proofs.Page.Picking
import Mathlib.Data.List.Nodup

/-!
# Keys as paths

The keys of a flattened document are the paths of its leaves, joined by dots, and each of them leads
back to its value.

* `Text.splitOn_join`: parts without dots can be read off their joined text.
* `Row.places`: the leaves of a document with their paths; `Row.mem_places` says that these are what
  `Json.at?` leads to.
* `Json.Plain`: names have no dots and arrays start with a scalar, so that each leaf has a key of its
  own.
* `Row.arrivals_eq`: **each leaf arrives under its joined path.**
* `Row.perm_foldl_place`: values that arrive under different keys are all kept.
* `Row.flatten_keys_exact`: **the keys are the joined paths of the leaves; as the path of a field a
  key leads to its value, and a field with this name is picked with it.**
-/

namespace ViewCompiler

/-! ### Joined paths -/

theorem Text.join_eq_intercalate (separator : String) (parts : List String) :
    join separator parts = separator.intercalate parts := by
  induction parts with
  | nil => rw [join, String.intercalate_nil]
  | cons part rest ih =>
    cases rest with
    | nil => rw [join, String.intercalate_singleton]
    | cons next rest => rw [String.intercalate_cons_cons, ← ih]; rfl

theorem Text.splitOn_eq (separator : Char) (cs : List Char) :
    splitOn separator cs = cs.splitOn separator := by
  induction cs with
  | nil => rfl
  | cons c rest ih =>
    obtain ⟨part, parts, hparts⟩ := List.exists_cons_of_ne_nil (splitOn_ne_nil separator rest)
    have hrest : List.splitOnP (fun x => x == separator) rest = part :: parts := ih.symm.trans hparts
    rw [splitOn, hparts, List.splitOn, List.splitOnP_cons_eq_if_modifyHead, hrest]
    simp only [beq_iff_eq, List.modifyHead_cons]

/-- Parts without dots can be read off their joined text. -/
theorem Text.splitOn_join {path : List String} (hpath : path ≠ [])
    (h : ∀ part ∈ path, '.' ∉ part.toList) :
    (splitOn '.' (join "." path).toList).map String.ofList = path := by
  have hparts : ∀ part ∈ path.map String.toList, '.' ∉ part := List.forall_mem_map.2 h
  rw [splitOn_eq, join_eq_intercalate, String.toList_intercalate,
    show ".".toList = ['.'] from rfl,
    List.splitOn_intercalate '.' hparts (mt List.map_eq_nil_iff.1 hpath), List.map_map]
  exact (List.map_congr_left fun part _ => String.ofList_toList).trans (List.map_id path)

namespace Json

variable {value leaf : Json} {members : KeyMap Json} {items : List Json} {path : List String}

/-- A scalar, an array or an empty object. -/
def isLeaf : Json → Bool
  | .object (_ :: _) => false
  | _ => true

/-- The names that paths lead through have no dots, and the arrays that paths lead to start with
neither an array nor an object. -/
inductive Plain : Json → Prop
  | object {members : KeyMap Json} (hnames : ∀ entry ∈ members, '.' ∉ entry.1.toList)
      (hmembers : ∀ entry ∈ members, Plain entry.2) : Plain (object members)
  | array {items : List Json} (h : Row.startsNested items = false) : Plain (array items)
  | scalar {value : Json} (h : value.isContainer = false) : Plain value

theorem Plain.name (h : Plain (.object members)) {entry : String × Json} (hentry : entry ∈ members) :
    '.' ∉ entry.1.toList := by
  cases h with
  | object hnames => exact hnames entry hentry
  | scalar hscalar => cases hscalar

theorem Plain.of_mem (h : Plain (.object members)) {entry : String × Json}
    (hentry : entry ∈ members) : Plain entry.2 := by
  cases h with
  | object _ hmembers => exact hmembers entry hentry
  | scalar hscalar => cases hscalar

theorem Plain.tail {entry : String × Json} {rest : KeyMap Json}
    (h : Plain (.object (entry :: rest))) : Plain (.object rest) :=
  .object (fun _ hother => h.name (List.mem_cons_of_mem _ hother))
    fun _ hother => h.of_mem (List.mem_cons_of_mem _ hother)

theorem Plain.startsNested (h : Plain (.array items)) : Row.startsNested items = false := by
  cases h with
  | array hitems => exact hitems
  | scalar hscalar => cases hscalar

theorem Plain.dotless (h : Plain value) (hat : value.at? path ≠ none) :
    ∀ name ∈ path, '.' ∉ name.toList := by
  induction path generalizing value with
  | nil => exact fun name hname => absurd hname List.not_mem_nil
  | cons first rest ih =>
    obtain ⟨members, rfl⟩ := exists_members_of_at? hat (List.cons_ne_nil first rest)
    cases hget : KeyMap.get? members first with
    | none => exact absurd (by rw [at?_object_cons, hget]; rfl) hat
    | some member =>
      have hentry := KeyMap.mem_of_get? hget
      rw [at?_object_cons, hget] at hat
      exact List.forall_mem_cons.2 ⟨h.name hentry, ih (h.of_mem hentry) hat⟩

end Json

namespace Row

open Json (InOrder Plain)

variable {document row : Row} {value leaf : Json} {path : List String}

/-! ### Leaves and their paths -/

mutual

/-- The leaves of a value with the paths that lead to them. -/
def placesAt : Json → List (List String × Json)
  | .object (member :: rest) => places (member :: rest)
  | leaf => [([], leaf)]

/-- The leaves of a document with the paths that lead to them. -/
def places : List (String × Json) → List (List String × Json)
  | [] => []
  | (name, value) :: rest =>
    (placesAt value).map (fun place => (name :: place.1, place.2)) ++ places rest

end

theorem placesAt_of_isLeaf (h : value.isLeaf = true) : placesAt value = [([], value)] := by
  match value with
  | .object [] => rfl
  | .object (_ :: _) => cases h
  | .null | .bool _ | .number _ | .string _ | .array _ => rfl

theorem placesAt_object (h : row ≠ []) : placesAt (.object row) = places row := by
  cases row with
  | nil => exact absurd rfl h
  | cons => rfl

theorem mem_places_iff_exists :
    (path, leaf) ∈ places document ↔
      ∃ name member rest, (name, member) ∈ document ∧ (rest, leaf) ∈ placesAt member ∧
        path = name :: rest := by
  induction document with
  | nil => simp [places]
  | cons entry others ih =>
    obtain ⟨name, member⟩ := entry
    rw [places, List.mem_append, ih]
    constructor
    · rintro (h | ⟨name', member', rest, hmem, hrest, rfl⟩)
      · obtain ⟨⟨rest, value⟩, hrest, heq⟩ := List.mem_map.1 h
        obtain ⟨rfl, rfl⟩ := Prod.mk.inj heq
        exact ⟨name, member, rest, List.mem_cons_self, hrest, rfl⟩
      · exact ⟨name', member', rest, List.mem_cons_of_mem _ hmem, hrest, rfl⟩
    · rintro ⟨name', member', rest, hmem, hrest, rfl⟩
      rcases List.mem_cons.1 hmem with heq | hmem
      · obtain ⟨rfl, rfl⟩ := Prod.mk.inj heq
        exact .inl (List.mem_map.2 ⟨(rest, leaf), hrest, rfl⟩)
      · exact .inr ⟨name', member', rest, hmem, hrest, rfl⟩

theorem mem_placesAt (h : InOrder value) :
    (path, leaf) ∈ placesAt value ↔ value.at? path = some leaf ∧ leaf.isLeaf = true := by
  induction path generalizing value with
  | nil =>
    cases hleaf : value.isLeaf with
    | true =>
      rw [placesAt_of_isLeaf hleaf, List.mem_singleton, Json.at?_nil]
      constructor
      · rintro ⟨-, rfl⟩
        exact ⟨rfl, hleaf⟩
      · rintro ⟨hat, -⟩
        rw [Option.some.inj hat]
    | false =>
      match value with
      | .object (member :: rest) =>
        rw [placesAt_object (List.cons_ne_nil member rest), mem_places_iff_exists]
        constructor
        · rintro ⟨name, member, rest, -, -, hpath⟩
          cases hpath
        · rintro ⟨hat, hend⟩
          rw [← Option.some.inj hat, hleaf] at hend
          cases hend
  | cons name rest ih =>
    match value with
    | .object [] => simp [placesAt]
    | .object (member :: others) =>
      rw [placesAt_object (List.cons_ne_nil member others), mem_places_iff_exists,
        Json.at?_object_cons]
      constructor
      · rintro ⟨name', found, rest', hmem, hrest, hpath⟩
        obtain ⟨rfl, rfl⟩ := List.cons.inj hpath
        rw [h.ordered.get?_of_mem hmem]
        exact (ih (h.of_mem hmem)).1 hrest
      · rintro ⟨hat, hleaf⟩
        obtain ⟨found, hget, hfound⟩ := Option.bind_eq_some_iff.1 hat
        exact ⟨name, found, rest, KeyMap.mem_of_get? hget,
          (ih (h.of_get? hget)).2 ⟨hfound, hleaf⟩, rfl⟩
    | .null | .bool _ | .number _ | .string _ | .array _ =>
      simp [placesAt, Json.at?, Json.member?, Json.members?]

/-- **The leaves of a document** are what paths lead to. -/
theorem mem_places (h : InOrder (.object document)) :
    (path, leaf) ∈ places document ↔
      path ≠ [] ∧ (Json.object document).at? path = some leaf ∧ leaf.isLeaf = true := by
  by_cases hnil : document = []
  · subst hnil
    cases path <;> simp [places]
  · rw [← placesAt_object hnil, mem_placesAt h]
    refine ⟨fun hat => ⟨?_, hat⟩, And.right⟩
    rintro rfl
    obtain ⟨hat, hleaf⟩ := hat
    obtain rfl := Option.some.inj hat
    cases document with
    | nil => exact hnil rfl
    | cons => cases hleaf

mutual

theorem nodup_placesAt (value : Json) (h : InOrder value) :
    ((placesAt value).map Prod.fst).Nodup := by
  match value with
  | .object [] => exact List.nodup_singleton []
  | .object (member :: rest) => exact nodup_places (member :: rest) h
  | .null | .bool _ | .number _ | .string _ | .array _ => exact List.nodup_singleton []

/-- No path leads to two leaves. -/
theorem nodup_places (members : List (String × Json)) (h : InOrder (.object members)) :
    ((places members).map Prod.fst).Nodup := by
  match members with
  | [] => exact List.nodup_nil
  | (name, value) :: rest =>
    rw [places, List.map_append, List.map_map]
    refine List.nodup_append'.2 ⟨?_, nodup_places rest h.tail, ?_⟩
    · have hbelow := nodup_placesAt value (h.of_mem List.mem_cons_self)
      rw [show Prod.fst ∘ (fun place : List String × Json => (name :: place.1, place.2)) =
        List.cons name ∘ Prod.fst from rfl, ← List.map_map]
      exact hbelow.map (List.cons_injective)
    · intro path hhere hlater
      obtain ⟨place, -, rfl⟩ := List.mem_map.1 hhere
      obtain ⟨⟨path, leaf⟩, hplace, hpath⟩ := List.mem_map.1 hlater
      obtain ⟨name', member, below, hmem, -, heq⟩ := mem_places_iff_exists.1 hplace
      obtain ⟨rfl, -⟩ := List.cons.inj (hpath.symm.trans heq)
      exact absurd ((List.pairwise_cons.1 h.ordered).1 _ hmem) (lt_irrefl _)

end

/-! ### Leaves under their keys -/

mutual

/-- A leaf arrives under the key of the value and the path that leads to it from there. -/
theorem arrivalsAt_eq (key : String) (value : Json) (h : Plain value) :
    arrivalsAt key value =
      (placesAt value).map fun place => (Text.join "." (key :: place.1), place.2) := by
  match value with
  | .object [] => rfl
  | .object (member :: rest) =>
    rw [arrivalsAt, placesAt]
    · exact arrivalsUnder_eq key (member :: rest) h
    simp
  | .array items =>
    rw [arrivalsAt, h.startsNested]
    rfl
  | .null | .bool _ | .number _ | .string _ => rfl

theorem arrivalsUnder_eq (key : String) (members : List (String × Json))
    (h : Plain (.object members)) :
    arrivalsUnder key members =
      (places members).map fun place => (Text.join "." (key :: place.1), place.2) := by
  match members with
  | [] => rfl
  | (name, value) :: rest =>
    rw [arrivalsUnder, places, List.map_append, List.map_map,
      arrivalsAt_eq _ value (h.of_mem List.mem_cons_self), arrivalsUnder_eq key rest h.tail]
    refine congrArg (· ++ _) (List.map_congr_left fun place _ => ?_)
    rw [Function.comp_apply, Text.join_eq_intercalate, Text.join_eq_intercalate,
      String.intercalate_cons_cons, String.intercalate_cons_append]

end

/-- **Each leaf arrives under its joined path.** -/
theorem arrivals_eq (h : Plain (.object document)) :
    arrivals document = (places document).map fun place => (Text.join "." place.1, place.2) := by
  unfold arrivals
  induction document with
  | nil => rfl
  | cons entry rest ih =>
    rw [List.flatMap_cons, ih h.tail, arrivalsAt_eq _ _ (h.of_mem List.mem_cons_self), places,
      List.map_append, List.map_map]
    rfl

theorem place_of_get?_eq_none {arrival : String × Json} (h : row.get? arrival.1 = none) :
    row.place (fun _ => true) arrival = row.insert arrival.1 arrival.2 := by
  unfold place collect put
  rw [h]
  split <;> exact if_pos rfl

theorem perm_foldl_place {arrivals : List (String × Json)}
    (h : ((row ++ arrivals).map Prod.fst).Nodup) :
    (arrivals.foldl (place fun _ => true) row).Perm (row ++ arrivals) := by
  induction arrivals generalizing row with
  | nil => rw [List.foldl_nil, List.append_nil]
  | cons arrival rest ih =>
    have hnew : row.get? arrival.1 = none := by
      refine KeyMap.get?_eq_none_of_notMem fun hmem => ?_
      rw [List.map_append, List.map_cons] at h
      exact (List.nodup_append'.1 h).2.2 hmem List.mem_cons_self
    have hplaced : (row.place (fun _ => true) arrival).Perm (arrival :: row) :=
      place_of_get?_eq_none hnew ▸ KeyMap.perm_insert_of_get?_eq_none hnew arrival.2
    have hperm : (row.place (fun _ => true) arrival ++ rest).Perm (row ++ arrival :: rest) :=
      (hplaced.append_right rest).trans List.perm_middle.symm
    rw [List.foldl_cons]
    exact (ih ((hperm.map Prod.fst).nodup_iff.2 h)).trans hperm

theorem splitOn_key (hordered : InOrder (.object document)) (hplain : Plain (.object document))
    (h : (path, leaf) ∈ places document) :
    (Text.splitOn '.' (Text.join "." path).toList).map String.ofList = path := by
  obtain ⟨hpath, hat, -⟩ := (mem_places hordered).1 h
  exact Text.splitOn_join hpath (hplain.dotless (hat ▸ Option.some_ne_none leaf))

theorem nodup_keys (hordered : InOrder (.object document)) (hplain : Plain (.object document)) :
    ((places document).map fun place => Text.join "." place.1).Nodup := by
  have hpaths : ((places document).map fun place => Text.join "." place.1).map
      (fun key => (Text.splitOn '.' key.toList).map String.ofList) =
        (places document).map Prod.fst := by
    rw [List.map_map]
    exact List.map_congr_left fun place hplace => splitOn_key hordered hplain hplace
  exact List.Nodup.of_map _ (hpaths ▸ nodup_places document hordered)

/-- **The entries of a flattened document are its leaves under their joined paths.** -/
theorem perm_flatten (hordered : InOrder (.object document)) (hplain : Plain (.object document)) :
    (flatten document none).Perm
      ((places document).map fun place => (Text.join "." place.1, place.2)) := by
  have hflatten : flatten document none = (arrivals document).foldl (place fun _ => true) [] :=
    flattenWhere_eq _ document
  rw [hflatten, arrivals_eq hplain]
  refine perm_foldl_place ?_
  rw [List.nil_append, List.map_map]
  exact nodup_keys hordered hplain

/-- A single field with something to read is picked. -/
theorem exists_pick_singleton {field : Field} (h : document.read? field.path = some value) :
    ∃ picked, pick document [field] = .ok picked ∧
      (Json.object picked).at? field.path = some value := by
  have hwrites : writes document [field] = [(field.path, value)] := by
    rw [writes, List.filterMap_cons, h]
    rfl
  obtain ⟨picked, hpicked, hholds⟩ := exists_holds_of_pairwise
    (List.forall_mem_singleton.2 field.path_ne_nil : ∀ one ∈ [(field.path, value)], one.1 ≠ [])
    (List.pairwise_singleton ..)
  exact ⟨picked, (pick_eq document [field]).trans (hwrites ▸ hpicked),
    hholds.at? _ List.mem_cons_self⟩

/-- **The keys of a flattened document are the joined paths of its leaves**, if no name that paths
lead through has a dot and no array that they lead to starts with an array or an object.  The keys
are different and so are those of different leaves; as the path of a field a key leads to its value;
and a field with this name is picked with the value at this path, if it is a scalar and not
`null`. -/
theorem flatten_keys_exact (document : Row) (hordered : InOrder (.object document))
    (hplain : Plain (.object document)) :
    (flatten document none).keys.Nodup ∧
      (∀ key, key ∈ (flatten document none).keys ↔ ∃ path leaf, path ≠ [] ∧
        (Json.object document).at? path = some leaf ∧ leaf.isLeaf = true ∧
          key = Text.join "." path) ∧
      (∀ path path' leaf leaf', path ≠ [] → path' ≠ [] →
        (Json.object document).at? path = some leaf → leaf.isLeaf = true →
        (Json.object document).at? path' = some leaf' → leaf'.isLeaf = true →
          Text.join "." path = Text.join "." path' → path = path') ∧
      ∀ (field : Field) (value : Json), (flatten document none).get? field.name = some value →
        (Json.object document).at? field.path = some value ∧
          (value.isNull = false → value.isContainer = false → ∃ picked,
            pick document [field] = .ok picked ∧
              (Json.object picked).at? field.path = some value) := by
  have hperm := perm_flatten hordered hplain
  have hkeys : (flatten document none).keys.Perm
      ((places document).map fun place => Text.join "." place.1) := by
    have hfirst := hperm.map Prod.fst
    rwa [List.map_map] at hfirst
  refine ⟨hkeys.nodup_iff.2 (nodup_keys hordered hplain), fun key => ?_, ?_,
    fun field value hget => ?_⟩
  · rw [hkeys.mem_iff]
    constructor
    · intro hkey
      obtain ⟨⟨path, leaf⟩, hplace, rfl⟩ := List.mem_map.1 hkey
      obtain ⟨hpath, hat, hleaf⟩ := (mem_places hordered).1 hplace
      exact ⟨path, leaf, hpath, hat, hleaf, rfl⟩
    · rintro ⟨path, leaf, hpath, hat, hleaf, rfl⟩
      exact List.mem_map.2 ⟨(path, leaf), (mem_places hordered).2 ⟨hpath, hat, hleaf⟩, rfl⟩
  · intro path path' leaf leaf' hpath hpath' hat hleaf hat' hleaf' hjoin
    have hplace := (mem_places hordered).2 ⟨hpath, hat, hleaf⟩
    have hplace' := (mem_places hordered).2 ⟨hpath', hat', hleaf'⟩
    rw [← splitOn_key hordered hplain hplace, hjoin, splitOn_key hordered hplain hplace']
  · obtain ⟨⟨path, leaf⟩, hplace, heq⟩ :=
      List.mem_map.1 (hperm.mem_iff.1 (KeyMap.mem_of_get? hget))
    obtain ⟨hname, rfl⟩ := Prod.mk.inj heq
    have hpath : field.path = path := by
      rw [Field.path, ← hname, splitOn_key hordered hplain hplace]
    obtain ⟨-, hat, -⟩ := (mem_places hordered).1 hplace
    rw [← hpath] at hat
    refine ⟨hat, fun hnull hscalar => exists_pick_singleton ?_⟩
    have hitems : leaf.items? = none := by cases leaf <;> first | rfl | cases hscalar
    rw [read?_eq_at? field.path_ne_nil (Json.not_meetsArray_of_at? hat hitems), hat,
      Option.filter_some, hnull]
    rfl

/-- An empty object and a scalar below an object, and an array. -/
theorem flatten_keys_exact_nested :
    InOrder (.object [("host", .object [("labels", .object []), ("name", .bool true)]),
      ("tags", .array [.null])]) ∧
    Plain (.object [("host", .object [("labels", .object []), ("name", .bool true)]),
      ("tags", .array [.null])]) ∧
    (flatten [("host", .object [("labels", .object []), ("name", .bool true)]),
      ("tags", .array [.null])] none).keys = ["host.labels", "host.name", "tags"] ∧
    ∃ picked, pick [("host", .object [("labels", .object []), ("name", .bool true)]),
        ("tags", .array [.null])] [Field.ofName "host.name" .boolean] = .ok picked ∧
      (Json.object picked).at? ["host", "name"] = some (.bool true) := by
  have hordered : InOrder (.object [("host", .object [("labels", .object []), ("name", .bool true)]),
      ("tags", .array [.null])]) := by
    refine .object (by unfold KeyMap.Ordered; decide +kernel) ?_
    refine List.forall_mem_cons.2 ⟨?_, List.forall_mem_singleton.2 (.other rfl)⟩
    refine .object (by unfold KeyMap.Ordered; decide +kernel) ?_
    exact List.forall_mem_cons.2 ⟨Json.inOrder_empty, List.forall_mem_singleton.2 (.other rfl)⟩
  have hplain : Plain (.object [("host", .object [("labels", .object []), ("name", .bool true)]),
      ("tags", .array [.null])]) := by
    refine .object (by decide +kernel) ?_
    refine List.forall_mem_cons.2 ⟨?_, List.forall_mem_singleton.2 (.array rfl)⟩
    refine .object (by decide +kernel) ?_
    refine List.forall_mem_cons.2 ⟨?_, List.forall_mem_singleton.2 (.scalar rfl)⟩
    exact .object (fun _ hentry => absurd hentry List.not_mem_nil)
      fun _ hentry => absurd hentry List.not_mem_nil
  refine ⟨hordered, hplain, by decide +kernel, ?_⟩
  obtain ⟨-, -, -, hleads⟩ := flatten_keys_exact _ hordered hplain
  obtain ⟨-, hpick⟩ := hleads (Field.ofName "host.name" .boolean) (.bool true) rfl
  rw [show (Field.ofName "host.name" .boolean).path = ["host", "name"] by decide +kernel] at hpick
  exact hpick rfl rfl

end Row

end ViewCompiler
