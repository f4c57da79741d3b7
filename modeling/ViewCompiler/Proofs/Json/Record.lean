import ViewCompiler.Json.Depth
import ViewCompiler.Json.Record
import ViewCompiler.Proofs.KeyMap
import ViewCompiler.Proofs.Result

/-!
# Reading back what has been written

A value is read member by member and written member by member, so that a record is read back as it
was if each of its members is.

* `KeyMap.get?_ofList`: the last value of a key wins.
* `Json.exists_members`: an object that is written has the members that have a value.
* `Json.orElse?_eq_some`, `Json.optional?_eq_some`, `Json.list?_eq_some`: what a member that has
  been read comes from.
* `Json.optional?_map`, `Json.list?_map`: what is read of a member that has been written.
* `Json.depth_lt_of_get?`, `Json.depth_lt_of_mem`: what stands in a container nests less deep.
-/

namespace ViewCompiler

namespace KeyMap

variable {α : Type}

theorem get?_foldl_insert (entries : List (String × α)) (map : KeyMap α) (name : String) :
    get? (entries.foldl (fun map entry => insert map entry.1 entry.2) map) name =
      (get? entries.reverse name).or (get? map name) := by
  induction entries generalizing map with
  | nil => rfl
  | cons entry rest ih =>
    rw [List.foldl_cons, ih, get?_insert, List.reverse_cons, get?_append, get?_cons, get?_nil]
    cases get? rest.reverse name with
    | some value => rfl
    | none => split <;> rfl

theorem get?_ofList (entries : List (String × α)) (name : String) :
    get? (ofList entries) name = get? entries.reverse name := by
  rw [ofList, get?_foldl_insert]
  exact Option.or_none

theorem get?_mapValues {β : Type} (f : α → β) (map : KeyMap α) (name : String) :
    get? (mapValues f map) name = (get? map name).map f := by
  induction map with
  | nil => rfl
  | cons entry rest ih =>
    rw [mapValues, List.map_cons, get?_cons, get?_cons, ← mapValues, ih]
    split <;> rfl

theorem get?_eq_none_of_notMem {map : KeyMap α} {name : String} (h : name ∉ keys map) :
    get? map name = none := by
  cases hget : get? map name with
  | none => rfl
  | some value => exact absurd (mem_keys_of_get? hget) h

end KeyMap

namespace Json

/-! ### Objects -/

/-- Entries with different keys that may lack a value, as far as they have one. -/
theorem get?_filterMap_reverse {entries : List (String × Option Json)}
    (hnodup : (KeyMap.keys entries).Nodup) (name : String) :
    KeyMap.get? (entries.filterMap fun entry => entry.2.map fun value => (entry.1, value)).reverse
      name = (KeyMap.get? entries name).join := by
  induction entries with
  | nil => rfl
  | cons entry rest ih =>
    obtain ⟨key, value⟩ := entry
    obtain ⟨hkey, hrest⟩ := List.nodup_cons.1 hnodup
    have hsplit : ((key, value) :: rest).filterMap
        (fun entry => entry.2.map fun value => (entry.1, value)) =
        (value.map fun value => (key, value)).toList ++
          rest.filterMap fun entry => entry.2.map fun value => (entry.1, value) := by
      cases value <;> rfl
    rw [hsplit, List.reverse_append, KeyMap.get?_append, ih hrest, KeyMap.get?_cons]
    by_cases hname : key = name
    · subst hname
      rw [KeyMap.get?_eq_none_of_notMem hkey, if_pos rfl]
      cases value <;> simp [KeyMap.get?_cons]
    · rw [if_neg hname]
      cases value <;> simp [KeyMap.get?_cons, hname]

/-- An object that is written without the members that have no value has the others. -/
theorem exists_members (entries : List (String × Option Json))
    (hnodup : (KeyMap.keys entries).Nodup) :
    ∃ members : KeyMap Json, ofOptionalMembers entries = .object members ∧
      ∀ name, members.get? name = (KeyMap.get? entries name).join :=
  ⟨_, rfl, fun name => by rw [KeyMap.get?_ofList, get?_filterMap_reverse hnodup]⟩

theorem exists_all_members (entries : List (String × Json))
    (hnodup : (KeyMap.keys entries).Nodup) :
    ∃ members : KeyMap Json, ofMembers entries = .object members ∧
      ∀ name, members.get? name = KeyMap.get? entries name := by
  have hkeys : KeyMap.keys (KeyMap.mapValues some entries) =
      KeyMap.keys entries := by
    simp [KeyMap.keys, KeyMap.mapValues, Function.comp_def]
  obtain ⟨members, hobject, hget⟩ := exists_members _ (hkeys ▸ hnodup)
  have hsome : (KeyMap.mapValues some entries).filterMap
      (fun entry => entry.2.map fun value => (entry.1, value)) = entries := by
    rw [KeyMap.mapValues, List.filterMap_map]
    exact List.filterMap_some
  rw [ofOptionalMembers, hsome] at hobject
  refine ⟨members, hobject, fun name => ?_⟩
  rw [hget, KeyMap.get?_mapValues]
  cases KeyMap.get? entries name <;> rfl

/-! ### Members -/

section Members

variable {α : Type} {members : KeyMap Json} {name : String} {value : Json}
  {decode : Json → Option α} {encode : α → Json} {default a : α}

theorem orElse?_eq_some (h : orElse? members name default decode = some a) :
    a = default ∨ ∃ value, decode value = some a := by
  rw [orElse?] at h
  split at h
  · exact .inl (Option.some.inj h).symm
  · exact .inr ⟨_, h⟩

theorem optional?_eq_some {found : Option α} (h : optional? members name decode = some found)
    (ha : found = some a) : ∃ value ≠ .null, decode value = some a := by
  subst ha
  rw [optional?] at h
  split at h
  · cases h
  · cases h
  · next value hnull _ =>
    obtain ⟨b, hb, heq⟩ := Option.map_eq_some_iff.1 h
    exact ⟨value, hnull, hb.trans heq⟩

theorem orElse?_of_get? (h : members.get? name = some value) :
    orElse? members name default decode = decode value := by
  rw [orElse?, h]

theorem orElse?_of_none (h : members.get? name = none) :
    orElse? members name default decode = some default := by
  rw [orElse?, h]

theorem optional?_map {found : Option α} (h : members.get? name = found.map encode)
    (hnull : ∀ a, encode a ≠ .null) (hfound : ∀ a, found = some a → decode (encode a) = some a) :
    optional? members name decode = some found := by
  rw [optional?, h]
  cases found with
  | none => rfl
  | some a =>
    rw [Option.map_some]
    split
    · next heq => cases heq
    · next heq => exact absurd (Option.some.inj heq) (hnull a)
    · next heq =>
      obtain rfl := Option.some.inj heq
      rw [hfound a rfl, Option.map_some]

theorem optional?_string {found : Option String} (h : members.get? name = found.map string) :
    optional? members name string? = some found :=
  optional?_map h (fun _ heq => by cases heq) fun _ _ => rfl

theorem nat?_of_orElse? {n : Nat} (h : orElse? members name 0 nat? = some n) :
    nat? (.nat n) = some n := by
  rcases orElse?_eq_some h with rfl | ⟨value, hvalue⟩
  · rfl
  · unfold nat? at hvalue
    split at hvalue
    · next m =>
      split at hvalue
      · next hrange =>
        obtain rfl := Option.some.inj hvalue
        have hm : 0 ≤ m := by simp only [Bool.and_eq_true, decide_eq_true_eq] at hrange; omega
        rw [nat, nat?, Int.toNat_of_nonneg hm, if_pos hrange]
      · cases hvalue
    · cases hvalue

theorem int?_of_orElse? {n : Int} (h : orElse? members name 0 int? = some n) :
    int? (.int n) = some n := by
  rcases orElse?_eq_some h with rfl | ⟨value, hvalue⟩
  · rfl
  · unfold int? at hvalue
    split at hvalue
    · next m =>
      split at hvalue
      · next hrange =>
        obtain rfl := Option.some.inj hvalue
        exact if_pos hrange
      · cases hvalue
    · cases hvalue

/-! ### Lists -/

theorem list?_eq_some {items : List α} (h : list? decode value = some items) (ha : a ∈ items) :
    ∃ item, decode item = some a := by
  obtain ⟨values, -, hitems⟩ := Option.bind_eq_some_iff.1 h
  obtain ⟨item, -, hitem⟩ := Result.exists_of_mem_mapM hitems ha
  exact ⟨item, hitem⟩

/-- The items of a list that may be left out have been read from values. -/
theorem exists_of_orElse?_list {items : List α}
    (h : orElse? members name [] (list? decode) = some items) (ha : a ∈ items) :
    ∃ item, decode item = some a := by
  rcases orElse?_eq_some h with rfl | ⟨value, hvalue⟩
  · exact absurd ha List.not_mem_nil
  · exact list?_eq_some hvalue ha

theorem list?_map {items : List α} (h : ∀ a ∈ items, decode (encode a) = some a) :
    list? decode (.array (items.map encode)) = some items := by
  rw [list?, items?, Option.bind_some]
  induction items with
  | nil => rfl
  | cons item rest ih =>
    rw [List.forall_mem_cons] at h
    rw [List.map_cons, List.mapM_cons, h.1, ih h.2]
    rfl

theorem strings?_strings (texts : List String) : strings? (strings texts) = some texts :=
  list?_map fun _ _ => rfl

/-! ### Members that are left out -/

theorem orElse?_string {text : String}
    (h : members.get? name = if text = "" then none else some (.string text)) :
    orElse? members name "" string? = some text := by
  by_cases hempty : text = ""
  · rw [if_pos hempty] at h
    rw [orElse?_of_none h, hempty]
  · rw [if_neg hempty] at h
    exact orElse?_of_get? h

/-- A list is read back that is left out when it is empty, if its items are. -/
theorem orElse?_list {items : List α}
    (h : members.get? name = if items = [] then none else some (.array (items.map encode)))
    (hitems : ∀ a ∈ items, decode (encode a) = some a) :
    orElse? members name [] (list? decode) = some items := by
  by_cases hempty : items = []
  · rw [if_pos hempty] at h
    rw [orElse?_of_none h, hempty]
  · rw [if_neg hempty] at h
    rw [orElse?_of_get? h, list?_map hitems]

end Members

/-! ### Nesting -/

/-- The value is read back as it was written, by a reader that goes deeper than it nests. -/
def ReadBack {α : Type} (decode : Nat → Json → Option α) (encode : α → Json) (a : α) : Prop :=
  ∀ n, (encode a).depth < n → decode n (encode a) = some a

theorem depth_le_itemsDepth {item : Json} {items : List Json} (h : item ∈ items) :
    item.depth ≤ itemsDepth items := by
  induction items with
  | nil => exact absurd h List.not_mem_nil
  | cons first rest ih =>
    rw [itemsDepth]
    rcases List.mem_cons.1 h with rfl | h
    · exact Nat.le_max_left ..
    · exact (ih h).trans (Nat.le_max_right ..)

theorem depth_le_membersDepth {name : String} {value : Json} {members : KeyMap Json}
    (h : (name, value) ∈ members) : value.depth ≤ membersDepth members := by
  induction members with
  | nil => exact absurd h List.not_mem_nil
  | cons first rest ih =>
    obtain ⟨key, other⟩ := first
    rw [membersDepth]
    rcases List.mem_cons.1 h with heq | h
    · obtain ⟨-, rfl⟩ := Prod.mk.inj heq
      exact Nat.le_max_left ..
    · exact (ih h).trans (Nat.le_max_right ..)

theorem depth_lt_of_mem {item : Json} {items : List Json} (h : item ∈ items) :
    item.depth < (Json.array items).depth := by
  rw [depth]
  exact Nat.lt_succ_of_le (depth_le_itemsDepth h)

theorem depth_lt_of_get? {name : String} {value : Json} {members : KeyMap Json}
    (h : members.get? name = some value) : value.depth < (Json.object members).depth := by
  rw [depth]
  exact Nat.lt_succ_of_le (depth_le_membersDepth (KeyMap.mem_of_get? h))

end Json

end ViewCompiler
