import ViewCompiler.KeyMap
import Mathlib.Data.String.Basic

/-!
# Lookups in maps

* `KeyMap.get?_insert`: an insertion changes the value of its own key and of no other.
* `KeyMap.mem_keys_insert`: it adds its own key and no other.
* `KeyMap.mem_of_get?`, `KeyMap.mem_insert`: where the entries of a map come from.
* `KeyMap.Ordered`: the keys stand in order, which an insertion keeps.
* `KeyMap.Ordered.ext`: **maps in key order with the same lookups are the same.**
* `KeyMap.filter_insert`, `KeyMap.exists_insert_eq`: an insertion changes one entry of such a map.
-/

namespace ViewCompiler

namespace KeyMap

variable {α : Type} {map : KeyMap α} {key other : String} {value old : α}

@[simp] theorem get?_nil : get? ([] : KeyMap α) key = none := rfl

theorem get?_cons (entry : String × α) (rest : KeyMap α) :
    get? (entry :: rest) key = if entry.1 = key then some entry.2 else get? rest key := rfl

theorem get?_append (map rest : KeyMap α) (key : String) :
    get? (map ++ rest) key = (get? map key).or (get? rest key) := by
  induction map with
  | nil => simp
  | cons entry map ih =>
    rw [List.cons_append, get?_cons, get?_cons, ih]
    split <;> rfl

theorem get?_ite (condition : Prop) [Decidable condition] (name key : String) (value : α) :
    get? (if condition then [(name, value)] else []) key =
      if condition ∧ name = key then some value else none := by
  by_cases hcondition : condition <;> simp [hcondition, get?_cons]

theorem get?_map_toList {β : Type} (found : Option β) (name key : String) (value : β → α) :
    get? (found.map fun item => (name, value item)).toList key =
      if name = key then found.map value else none := by
  cases found <;> simp [get?_cons]

/-- An insertion changes the value of its own key and of no other. -/
theorem get?_insert (map : KeyMap α) (key other : String) (value : α) :
    get? (insert map key value) other = if key = other then some value else get? map other := by
  induction map with
  | nil => simp [insert, get?_cons]
  | cons entry rest ih =>
    obtain ⟨k, v⟩ := entry
    by_cases hlt : key < k
    · simp only [insert, hlt, ↓reduceIte, get?_cons]
    · by_cases heq : key = k
      · subst heq
        simp only [insert, hlt, ↓reduceIte, get?_cons]
        split <;> rfl
      · simp only [insert, hlt, heq, ↓reduceIte, get?_cons, ih]
        by_cases hk : k = other
        · subst hk
          simp [heq]
        · simp [hk]

theorem mem_keys_insert {map : KeyMap α} {key other : String} {value : α} :
    other ∈ keys (insert map key value) ↔ other = key ∨ other ∈ keys map := by
  induction map with
  | nil => simp [insert, keys]
  | cons entry rest ih =>
    obtain ⟨k, v⟩ := entry
    rw [insert]
    split_ifs with hlt heq
    · simp [keys]
    · subst heq
      simp [keys]
    · simp only [keys, List.map_cons, List.mem_cons] at ih ⊢
      rw [ih]
      tauto

theorem mem_of_get? (h : get? map key = some value) : (key, value) ∈ map := by
  induction map with
  | nil => exact absurd h (by simp)
  | cons entry rest ih =>
    rw [get?_cons] at h
    split at h
    · next heq =>
      obtain rfl := Option.some.inj h
      subst heq
      exact List.mem_cons_self
    · exact List.mem_cons_of_mem _ (ih h)

theorem mem_keys_of_get? (h : get? map key = some value) : key ∈ keys map :=
  List.mem_map.2 ⟨(key, value), mem_of_get? h, rfl⟩

/-- The entries after an insertion are the new one and some of the old. -/
theorem mem_insert {entry : String × α} (h : entry ∈ insert map key value) :
    entry = (key, value) ∨ entry ∈ map := by
  induction map with
  | nil => exact .inl (List.mem_singleton.1 h)
  | cons first rest ih =>
    obtain ⟨k, v⟩ := first
    rw [insert] at h
    split_ifs at h with hlt heq
    · exact List.mem_cons.1 h
    · rcases List.mem_cons.1 h with rfl | h
      · exact .inl rfl
      · exact .inr (List.mem_cons_of_mem _ h)
    · rcases List.mem_cons.1 h with rfl | h
      · exact .inr List.mem_cons_self
      · exact (ih h).imp_right (List.mem_cons_of_mem _)

theorem insert_ne_nil (map : KeyMap α) (key : String) (value : α) : insert map key value ≠ [] := by
  intro h
  have hkey : key ∈ keys (insert map key value) := mem_keys_insert.2 (.inl rfl)
  rw [h] at hkey
  exact List.not_mem_nil hkey

/-! ### Maps in key order -/

/-- The keys are strictly increasing. -/
def Ordered (map : KeyMap α) : Prop := map.Pairwise fun first second => first.1 < second.1

theorem ordered_nil : Ordered ([] : KeyMap α) := List.Pairwise.nil

theorem Ordered.insert (h : Ordered map) (key : String) (value : α) :
    Ordered (insert map key value) := by
  induction map with
  | nil => exact List.pairwise_singleton ..
  | cons entry rest ih =>
    obtain ⟨k, v⟩ := entry
    obtain ⟨hfirst, hrest⟩ := List.pairwise_cons.1 h
    unfold KeyMap.insert
    split_ifs with hlt heq
    · refine List.Pairwise.cons (fun entry hentry => ?_) h
      rcases List.mem_cons.1 hentry with rfl | hentry
      · exact hlt
      · exact lt_trans hlt (hfirst entry hentry)
    · subst heq
      exact List.Pairwise.cons hfirst hrest
    · refine List.Pairwise.cons (fun entry hentry => ?_) (ih hrest)
      rcases mem_insert hentry with rfl | hentry
      · exact lt_of_le_of_ne (not_lt.1 hlt) (Ne.symm heq)
      · exact hfirst entry hentry

theorem Ordered.filter (h : Ordered map) (keep : String → Bool) :
    Ordered (map.filter fun entry => keep entry.1) :=
  List.Pairwise.filter _ h

theorem get?_head (entry : String × α) (rest : KeyMap α) :
    get? (entry :: rest) entry.1 = some entry.2 := by
  rw [get?_cons, if_pos rfl]

theorem Ordered.first_le {entry : String × α} {rest : KeyMap α} (h : Ordered (entry :: rest))
    (hget : get? (entry :: rest) key = some value) : entry.1 ≤ key := by
  rcases List.mem_cons.1 (mem_of_get? hget) with heq | hmem
  · exact heq ▸ le_refl _
  · exact le_of_lt ((List.pairwise_cons.1 h).1 _ hmem)

theorem Ordered.get?_rest {entry : String × α} {rest : KeyMap α} (h : Ordered (entry :: rest)) :
    get? rest entry.1 = none := by
  cases hget : get? rest entry.1 with
  | none => rfl
  | some value => exact absurd ((List.pairwise_cons.1 h).1 _ (mem_of_get? hget)) (lt_irrefl _)

theorem Ordered.get?_of_mem (h : Ordered map) (hmem : (key, value) ∈ map) :
    get? map key = some value := by
  induction map with
  | nil => exact absurd hmem List.not_mem_nil
  | cons entry rest ih =>
    obtain ⟨hfirst, hrest⟩ := List.pairwise_cons.1 h
    rcases List.mem_cons.1 hmem with rfl | hmem
    · exact get?_head _ rest
    · rw [get?_cons, if_neg (ne_of_lt (hfirst _ hmem))]
      exact ih hrest hmem

/-- **Maps in key order with the same lookups are the same.** -/
theorem Ordered.ext {map other : KeyMap α} (hmap : Ordered map) (hother : Ordered other)
    (h : ∀ key, get? map key = get? other key) : map = other := by
  induction map generalizing other with
  | nil =>
    cases other with
    | nil => rfl
    | cons entry rest =>
      have hhead := (h entry.1).trans (get?_head entry rest)
      exact absurd hhead (Option.some_ne_none _).symm
  | cons entry rest ih =>
    cases other with
    | nil =>
      have hhead := (h entry.1).symm.trans (get?_head entry rest)
      exact absurd hhead (Option.some_ne_none _).symm
    | cons entry' rest' =>
      -- each of the first keys is found in the other map, where no key comes before the first
      have hkeys : entry.1 = entry'.1 :=
        le_antisymm (hmap.first_le ((h entry'.1).trans (get?_head entry' rest')))
          (hother.first_le ((h entry.1).symm.trans (get?_head entry rest)))
      have hvalues : entry.2 = entry'.2 := by
        have hkey := h entry.1
        rw [get?_head, hkeys, get?_head] at hkey
        exact Option.some.inj hkey
      have hrests : rest = rest' := by
        refine ih (List.pairwise_cons.1 hmap).2 (List.pairwise_cons.1 hother).2 fun key => ?_
        have hkey := h key
        rw [get?_cons, get?_cons, hkeys] at hkey
        by_cases heq : entry'.1 = key
        · rw [← heq, hother.get?_rest, ← hkeys, hmap.get?_rest]
        · rwa [if_neg heq, if_neg heq] at hkey
      rw [Prod.ext hkeys hvalues, hrests]

theorem perm_insert_of_get?_eq_none (h : get? map key = none) (value : α) :
    (insert map key value).Perm ((key, value) :: map) := by
  induction map with
  | nil => exact List.Perm.refl _
  | cons entry rest ih =>
    obtain ⟨k, v⟩ := entry
    rw [get?_cons] at h
    split at h
    · cases h
    next hne =>
    unfold insert
    split_ifs with hlt heq
    · exact List.Perm.refl _
    · exact absurd heq.symm hne
    · exact ((ih h).cons (k, v)).trans (List.Perm.swap ..)

theorem exists_insert_eq (hmap : Ordered map) (h : get? map key = some old) (value : α) :
    ∃ before after, map = before ++ (key, old) :: after ∧
      insert map key value = before ++ (key, value) :: after := by
  induction map with
  | nil => cases h
  | cons entry rest ih =>
    obtain ⟨k, v⟩ := entry
    obtain ⟨hfirst, hrest⟩ := List.pairwise_cons.1 hmap
    rw [get?_cons] at h
    unfold insert
    split at h
    · next heq =>
      obtain rfl := Option.some.inj h
      obtain rfl : k = key := heq
      rw [if_neg (lt_irrefl k), if_pos rfl]
      exact ⟨[], rest, rfl, rfl⟩
    · next hne =>
      -- the key stands further back, so that it is greater
      have hlt : k < key := hfirst _ (mem_of_get? h)
      rw [if_neg (lt_asymm hlt), if_neg (Ne.symm hne)]
      obtain ⟨before, after, rfl, hinsert⟩ := ih hrest h
      exact ⟨(k, v) :: before, after, rfl, by rw [hinsert, List.cons_append]⟩

theorem Ordered.insert_eq_self (hmap : Ordered map) (h : get? map key = some value) :
    KeyMap.insert map key value = map := by
  refine (hmap.insert key value).ext hmap fun other => ?_
  rw [get?_insert]
  split
  · next heq => rw [← heq, h]
  · rfl

theorem get?_filter (keep : String → Bool) (map : KeyMap α) (key : String) :
    get? (map.filter fun entry => keep entry.1) key = if keep key then get? map key else none := by
  induction map with
  | nil => simp
  | cons entry rest ih =>
    rw [List.filter_cons, get?_cons]
    by_cases heq : entry.1 = key
    · subst heq
      by_cases hkeep : keep entry.1 = true
      · simp [hkeep, get?_cons]
      · simp [hkeep, ih]
    · by_cases hkeep : keep entry.1 = true
      · rw [if_pos hkeep, get?_cons, if_neg heq, if_neg heq, ih]
      · rw [if_neg hkeep, if_neg heq, ih]

/-- The choice of keys commutes with an insertion, unless it drops the key. -/
theorem filter_insert (hmap : Ordered map) (keep : String → Bool) (key : String) (value : α) :
    (insert map key value).filter (fun entry => keep entry.1) =
      if keep key then insert (map.filter fun entry => keep entry.1) key value
      else map.filter fun entry => keep entry.1 := by
  split
  · next hkeep =>
    refine ((hmap.insert key value).filter keep).ext ((hmap.filter keep).insert key value) ?_
    intro other
    rw [get?_filter, get?_insert, get?_insert, get?_filter]
    by_cases heq : key = other
    · subst heq
      simp [hkeep]
    · simp [heq]
  · next hkeep =>
    refine ((hmap.insert key value).filter keep).ext (hmap.filter keep) ?_
    intro other
    rw [get?_filter, get?_insert, get?_filter]
    by_cases heq : key = other
    · subst heq
      simp [hkeep]
    · simp [heq]

end KeyMap

end ViewCompiler
