import ViewCompiler.Proofs.Page.Picking
import Mathlib.Data.List.Infix
import Mathlib.Data.List.Sort

/-!
# When the order of the fields matters

A field and one below it are written into the same part of a row, so that the later one may change
what the earlier one has set, or may not be written at all.

* `Row.setAt_of_at?`: a value that stands at a path already can be set there again.
* `Row.Consistent`: a write below another one sets what the other one sets there.
* `Row.exists_holds_of_consistent`: **writes that are consistent are all held, in any order.**
* `Row.eq_of_holds`: a row is determined by the writes that it holds.
* `Row.exists_deepest`: the fields can be ordered so that none is written below an earlier one.
* `Row.pick_perm_iff`: **picking does not depend on the order of the fields exactly if each field
  below another one reads what stands at its path.**
-/

namespace ViewCompiler

namespace Row

open Json (InOrder)

variable {row picked document : Row} {path : List String} {value : Json}
  {ones : List (List String × Json)} {fields : List Field}

/-! ### Consistent writes -/

theorem setAt_of_at? (hrow : InOrder (.object row)) (hpath : path ≠ [])
    (h : (Json.object row).at? path = some value) : setAt path value row = .ok row := by
  induction path generalizing row with
  | nil => exact absurd rfl hpath
  | cons segment rest ih =>
    obtain ⟨member, hget, hat⟩ := Option.bind_eq_some_iff.1 h
    by_cases hnil : rest = []
    · subst hnil
      obtain rfl := Option.some.inj hat
      exact congrArg Except.ok (hrow.ordered.insert_eq_self hget)
    · obtain ⟨inner, rfl⟩ := Json.exists_members_of_at? (hat ▸ Option.some_ne_none value) hnil
      refine (setAt_cons_eq_ok hnil).2 ⟨inner, inner, .inr hget, ?_, ?_⟩
      · exact ih (hrow.of_get? hget) hnil hat
      · exact (hrow.ordered.insert_eq_self hget).symm

/-- A write below another one sets what the other one sets there. -/
def Consistent (ones : List (List String × Json)) : Prop :=
  ∀ first ∈ ones, ∀ second ∈ ones, ∀ rest, second.1 = first.1 ++ rest →
    first.2.at? rest = some second.2

/-- **Writes that are consistent are all held, in any order.** -/
theorem exists_holds_of_consistent (hpaths : ∀ one ∈ ones, one.1 ≠ [])
    (hvalues : ∀ one ∈ ones, InOrder one.2) (h : Consistent ones) :
    ∃ row, ones.foldlM write [] = .ok row ∧ Holds row ones ∧ InOrder (.object row) := by
  refine Result.exists_foldlM (fun row written => Holds row written ∧ InOrder (.object row)) ones
    ⟨holds_empty, Json.inOrder_empty⟩ fun row before one after heq hrow => ?_
  obtain ⟨hholds, hordered⟩ := hrow
  subst heq
  have hone : one ∈ before ++ one :: after := List.mem_append_right _ List.mem_cons_self
  by_cases hbelow : ∃ earlier ∈ before, earlier.1 <+: one.1
  · -- the value stands in that of the earlier write
    obtain ⟨earlier, hearlier, rest, hrest⟩ := hbelow
    have hat : (Json.object row).at? one.1 = some one.2 := by
      rw [← hrest, Json.at?_append_of_at? (hholds.at? earlier hearlier)]
      exact h earlier (List.mem_append_left _ hearlier) one hone rest hrest.symm
    refine ⟨row, setAt_of_at? hordered (hpaths one hone) hat, ⟨fun other hother => ?_, ?_⟩, hordered⟩
    · rcases List.mem_append.1 hother with hold | hlast
      · exact hholds.at? other hold
      · obtain rfl := List.mem_singleton.1 hlast
        exact hat
    · intro path hpath found hfound
      obtain ⟨other, hother, hpaths⟩ := hholds.within path hpath found hfound
      exact ⟨other, List.mem_append_left _ hother, hpaths⟩
  · have hends : ∀ earlier ∈ before, ¬earlier.1 <+: one.1 :=
      fun earlier hearlier hle => hbelow ⟨earlier, hearlier, hle⟩
    obtain ⟨picked, hpicked, hnext⟩ := hholds.exists_write (hpaths one hone) hends
      fun earlier hearlier rest hrest =>
        h one hone earlier (List.mem_append_left _ hearlier) rest hrest
    exact ⟨picked, hpicked, hnext, inOrder_setAt hordered (hvalues one hone) hpicked⟩

/-- A row in key order is determined by the writes that it holds. -/
theorem eq_of_holds {other : Row} {others : List (List String × Json)}
    (hrow : Holds row ones) (hother : Holds other others)
    (hsame : ∀ one, one ∈ ones ↔ one ∈ others) (hordered : InOrder (.object row))
    (hordered' : InOrder (.object other)) : row = other := by
  refine Json.object.inj (hordered.ext hordered' fun path => ?_)
  by_cases hnil : path = []
  · subst hnil
    rfl
  by_cases hbelow : ∃ one ∈ ones, one.1 <+: path
  · obtain ⟨one, hone, rest, rfl⟩ := hbelow
    rw [Json.at?_append_of_at? (hrow.at? one hone),
      Json.at?_append_of_at? (hother.at? one ((hsame one).1 hone))]
  by_cases habove : ∃ one ∈ ones, path <+: one.1
  · -- both rows have an object there, on the way to the same write
    obtain ⟨one, hone, hle⟩ := habove
    have hne : path ≠ one.1 := fun heq => hbelow ⟨one, hone, heq ▸ List.prefix_refl one.1⟩
    obtain ⟨members, hmembers⟩ :=
      Json.exists_object_above (hrow.at? one hone ▸ Option.some_ne_none _) hle hne
    obtain ⟨members', hmembers'⟩ := Json.exists_object_above
      (hother.at? one ((hsame one).1 hone) ▸ Option.some_ne_none _) hle hne
    rw [hmembers, hmembers']
    rfl
  · have hnone {found : Row} {written : List (List String × Json)} (hfound : Holds found written)
        (hwritten : ∀ one, one ∈ ones ↔ one ∈ written) : (Json.object found).at? path = none := by
      by_contra hne
      obtain ⟨value, hvalue⟩ := Option.ne_none_iff_exists'.1 hne
      obtain ⟨one, hone, hle | ⟨hle, -⟩⟩ := hfound.within path hnil value hvalue
      · exact hbelow ⟨one, (hwritten one).2 hone, hle⟩
      · exact habove ⟨one, (hwritten one).2 hone, hle⟩
    rw [hnone hrow fun one => Iff.rfl, hnone hother hsame]

/-- What fields write is consistent, if each of them below another one reads what stands at its
path. -/
theorem consistent_writes
    (h : ∀ field ∈ fields, ∀ above ∈ fields, above.path <+: field.path → above.path ≠ field.path →
      (Json.object document).reached field.path ≠ [] →
        (Json.object document).ReadAsIs field.path) :
    Consistent (writes document fields) := by
  intro first hfirst second hsecond rest hrest
  obtain ⟨above, habove, hpath, hread⟩ := mem_writes.1 hfirst
  obtain ⟨field, hfield, hfieldPath, hfieldRead⟩ := mem_writes.1 hsecond
  rw [← hpath, ← hfieldPath] at hrest
  by_cases hnil : rest = []
  · subst hnil
    rw [List.append_nil] at hrest
    exact congrArg some (Option.some.inj (hread.symm.trans (hrest ▸ hfieldRead)))
  have hne : above.path ≠ field.path := by
    intro heq
    exact hnil (List.append_right_eq_self.1 (hrest.symm.trans heq.symm))
  have hreads : document.read? field.path ≠ none := hfieldRead ▸ Option.some_ne_none _
  have hreached := mt (read?_eq_none_iff field.path_ne_nil).2 hreads
  have hat : (Json.object document).at? field.path = some second.2 := by
    rw [(at?_eq_read?_iff field.path_ne_nil hreads).2
      (h field hfield above habove (hrest ▸ List.prefix_append above.path rest) hne hreached)]
    exact hfieldRead
  -- the path leads through the field above, so that this reads the object there
  rw [hrest] at hat
  have hobject := read?_of_at?_append above.path_ne_nil hnil (hat ▸ Option.some_ne_none _)
  rw [hread] at hobject
  rwa [Json.at?_append_of_at? hobject.symm] at hat

/-! ### Orders that differ -/

theorem exists_pick_of_pairwise
    (h : fields.Pairwise fun earlier later => document.read? earlier.path ≠ none →
      earlier.path <+: later.path → earlier.path = later.path) :
    ∃ row, pick document fields = .ok row := by
  have hwrites : (writes document fields).Pairwise fun earlier later =>
      earlier.1 <+: later.1 → earlier.1 = later.1 := by
    refine h.filterMap _ fun earlier later hends one hone other hother => ?_
    obtain ⟨value, hvalue, rfl⟩ := Option.map_eq_some_iff.1 hone
    obtain ⟨_, -, rfl⟩ := Option.map_eq_some_iff.1 hother
    exact hends (hvalue ▸ Option.some_ne_none value)
  obtain ⟨row, hrow, -⟩ := Result.exists_foldlM WithinWrites (writes document fields)
    withinWrites_empty fun row before one after heq hrow => by
      have hone : one ∈ writes document fields := heq ▸ List.mem_append_right _ List.mem_cons_self
      rw [heq] at hwrites
      have hends := (List.pairwise_append.1 hwrites).2.2
      have hadmits : row.Admits one.1 :=
        hrow.admits fun earlier hearlier => hends earlier hearlier one List.mem_cons_self
      obtain ⟨picked, hpicked⟩ := exists_setAt hadmits one.2
      exact ⟨picked, hpicked, hrow.write (path_ne_nil_of_mem_writes hone) hpicked⟩
  exact ⟨row, (pick_eq document fields).trans hrow⟩

theorem at?_of_pick_append {field : Field} (h : pick document (fields ++ [field]) = .ok row)
    (hreads : document.read? field.path ≠ none) :
    (Json.object row).at? field.path = document.read? field.path := by
  obtain ⟨value, hread⟩ := Option.ne_none_iff_exists'.1 hreads
  rw [pick, List.foldlM_append] at h
  obtain ⟨before, -, hlast⟩ := Result.bind_eq_ok.1 h
  rw [List.foldlM_cons, pickField_eq, hread] at hlast
  obtain ⟨picked, hpicked, hend⟩ := Result.bind_eq_ok.1 hlast
  obtain rfl := Except.ok.inj hend
  exact (at?_setAt field.path_ne_nil hpicked).trans hread.symm

theorem exists_first {above : Field} (habove : above ∈ fields)
    (hread : document.read? above.path ≠ none) :
    ∃ first ∈ fields, document.read? first.path ≠ none ∧ first.path <+: above.path ∧
      ∀ other ∈ fields, document.read? other.path ≠ none → other.path <+: first.path →
        other.path = first.path := by
  induction hlength : above.path.length using Nat.strong_induction_on generalizing above with
  | _ length ih =>
    by_cases hfirst : ∀ other ∈ fields, document.read? other.path ≠ none →
        other.path <+: above.path → other.path = above.path
    · exact ⟨above, habove, hread, List.prefix_refl above.path, hfirst⟩
    · push Not at hfirst
      obtain ⟨other, hother, hotherRead, hle, hne⟩ := hfirst
      have hshorter : other.path.length < length := by
        have hlengths := hle.length_le
        have hnot : other.path.length ≠ above.path.length := fun heq => hne (hle.eq_of_length heq)
        omega
      obtain ⟨first, hfirst, hfirstRead, hfirstLe, hleast⟩ := ih _ hshorter hother hotherRead rfl
      exact ⟨first, hfirst, hfirstRead, hfirstLe.trans hle, hleast⟩

theorem perm_last (field : Field) (front back : List Field) :
    (front ++ field :: back).Perm (front ++ back ++ [field]) :=
  List.perm_middle.trans (List.perm_append_singleton field (front ++ back)).symm

theorem exists_longest_first (fields : List Field) :
    ∃ ordered : List Field, ordered.Perm fields ∧
      ordered.Pairwise fun earlier later => later.path.length ≤ earlier.path.length := by
  refine ⟨fields.mergeSort fun one other => decide (other.path.length ≤ one.path.length),
    List.mergeSort_perm .., (List.pairwise_mergeSort ?_ ?_ fields).imp of_decide_eq_true⟩
  · intro one other third hone hother
    exact decide_eq_true (le_trans (of_decide_eq_true hother) (of_decide_eq_true hone))
  · intro one other
    rw [Bool.or_eq_true, decide_eq_true_eq, decide_eq_true_eq]
    exact le_total _ _

/-- The fields can be ordered so that a given one is the last and no write goes on where an earlier
one ends, if no other write is on the way to this one. -/
theorem exists_deepest {first : Field} (hfirst : first ∈ fields)
    (hleast : ∀ other ∈ fields, document.read? other.path ≠ none → other.path <+: first.path →
      other.path = first.path) :
    ∃ before, (before ++ [first]).Perm fields ∧ ∃ row, pick document (before ++ [first]) = .ok row := by
  obtain ⟨front, back, rfl⟩ := List.append_of_mem hfirst
  obtain ⟨before, hbefore, hlongest⟩ := exists_longest_first (front ++ back)
  have hperm : (before ++ [first]).Perm (front ++ first :: back) :=
    (hbefore.append_right [first]).trans (perm_last first front back).symm
  refine ⟨before, hperm, exists_pick_of_pairwise ?_⟩
  refine List.pairwise_append.2 ⟨?_, List.pairwise_singleton .., ?_⟩
  · -- a longer path does not end on the way to a shorter one
    exact hlongest.imp fun hle _ hprefix => hprefix.eq_of_length_le hle
  · intro earlier hearlier later hlater hread hle
    obtain rfl := List.mem_singleton.1 hlater
    exact hleast earlier (hperm.mem_iff.1 (List.mem_append_left _ hearlier)) hread hle

/-- What a row holds below a path and reads as the document does, stands in the document, if the row
holds what the document reads at the path too. -/
theorem readAsIs_of_at? {above rest : List String} (habove : above ≠ []) (hrest : rest ≠ [])
    (hreads : document.read? (above ++ rest) ≠ none)
    (hatAbove : (Json.object row).at? above = document.read? above)
    (hat : (Json.object row).at? (above ++ rest) = document.read? (above ++ rest)) :
    (Json.object document).ReadAsIs (above ++ rest) := by
  have hne : above ++ rest ≠ [] := by simp [habove]
  have hproper : above ≠ above ++ rest := fun heq => hrest (List.append_right_eq_self.1 heq.symm)
  -- the row has an object above, which no array in the document is read as
  obtain ⟨members, hobject⟩ :=
    Json.exists_object_above (hat ▸ hreads) (List.prefix_append above rest) hproper
  rw [← at?_eq_read?_iff hne hreads, ← hat, Json.at?_append_of_at? hobject]
  rw [hatAbove] at hobject
  by_cases hmeets : (Json.object document).MeetsArray above
  · rw [read?_eq_array habove hmeets] at hobject
    split at hobject
    · cases hobject
    · cases Option.some.inj hobject
  · rw [read?_eq_at? habove hmeets] at hobject
    exact Json.at?_append_of_at? (Option.filter_eq_some_iff.1 hobject).1 rest

/-- **Picking does not depend on the order of the fields** exactly if each field that is below
another one and reads something reads what stands at its path. -/
theorem pick_perm_iff (document : Row) (hdocument : InOrder (.object document))
    (fields : List Field) :
    (∀ first second : List Field, first.Perm fields → second.Perm fields →
        (pick document first).toOption = (pick document second).toOption) ↔
      ∀ field ∈ fields, ∀ above ∈ fields, above.path <+: field.path → above.path ≠ field.path →
        (Json.object document).reached field.path ≠ [] →
          (Json.object document).ReadAsIs field.path := by
  constructor
  · intro h field hfield above habove hle hne hreached
    have hreads := mt (read?_eq_none_iff field.path_ne_nil).1 hreached
    have hreadsAbove : document.read? above.path ≠ none := by
      intro hnone
      obtain ⟨rest, hrest⟩ := hle
      rw [read?_eq_none_iff above.path_ne_nil] at hnone
      exact hreached (hrest ▸ Json.reached_append_eq_nil hnone rest)
    -- the first field on the way stands last in one order, the field itself in another one
    obtain ⟨first, hfirst, hfirstReads, hfirstLe, hleast⟩ := exists_first habove hreadsAbove
    obtain ⟨before, hperm, row, hrow⟩ := exists_deepest hfirst hleast
    obtain ⟨front, back, rfl⟩ := List.append_of_mem hfield
    have hother : pick document (front ++ back ++ [field]) = .ok row := by
      have hsame := h _ _ hperm (perm_last field front back).symm
      rw [hrow] at hsame
      exact Result.toOption_eq_some.1 hsame.symm
    obtain ⟨rest, hrest⟩ := hfirstLe.trans hle
    have hnil : rest ≠ [] := by
      rintro rfl
      rw [List.append_nil] at hrest
      exact hne (hle.eq_of_length_le (hrest ▸ hfirstLe.length_le))
    have hatFirst : (Json.object row).at? first.path = document.read? first.path :=
      at?_of_pick_append hrow hfirstReads
    have hat : (Json.object row).at? field.path = document.read? field.path :=
      at?_of_pick_append hother hreads
    rw [← hrest] at hat hreads ⊢
    exact readAsIs_of_at? first.path_ne_nil hnil hreads hatFirst hat
  · intro h first second hfirst hsecond
    have hpick (order : List Field) (horder : order.Perm fields) :
        ∃ row, pick document order = .ok row ∧ Holds row (writes document order) ∧
          InOrder (.object row) := by
      have hconsistent : Consistent (writes document order) :=
        consistent_writes fun field hfield above habove =>
          h field (horder.mem_iff.1 hfield) above (horder.mem_iff.1 habove)
      rw [pick_eq]
      refine exists_holds_of_consistent (fun _ => path_ne_nil_of_mem_writes) ?_ hconsistent
      intro one hone
      obtain ⟨field, -, hpath, hread⟩ := mem_writes.1 hone
      exact inOrder_read? hdocument field.path_ne_nil (hpath ▸ hread)
    obtain ⟨row, hrow, hholds, hordered⟩ := hpick first hfirst
    obtain ⟨other, hother, hholds', hordered'⟩ := hpick second hsecond
    have hsame : ∀ one, one ∈ writes document first ↔ one ∈ writes document second := fun one =>
      ((hfirst.trans hsecond.symm).filterMap _).mem_iff
    rw [hrow, hother, eq_of_holds hholds hholds' hsame hordered hordered']

/-- A field and one below it can be picked in any order, although the one below reads an array. -/
theorem pick_perm_iff_nested :
    InOrder (.object [("host", .object [("ips", .array [.bool true])])]) ∧
    ∀ first second : List Field,
      first.Perm [Field.ofName "host" .json, Field.ofName "host.ips" .boolean] →
      second.Perm [Field.ofName "host" .json, Field.ofName "host.ips" .boolean] →
      (pick [("host", .object [("ips", .array [.bool true])])] first).toOption =
        (pick [("host", .object [("ips", .array [.bool true])])] second).toOption := by
  have hdocument : InOrder (.object [("host", .object [("ips", .array [.bool true])])]) := by
    refine .object (List.pairwise_singleton ..) (List.forall_mem_singleton.2 ?_)
    exact .object (List.pairwise_singleton ..) (List.forall_mem_singleton.2 (.other rfl))
  refine ⟨hdocument, (pick_perm_iff _ hdocument _).2 fun field hfield _ _ _ _ _ => ?_⟩
  have hpaths : ∀ field ∈ [Field.ofName "host" .json, Field.ofName "host.ips" .boolean],
      field.path <+: ["host", "ips"] := by decide +kernel
  have hpath := hpaths field hfield
  intro path items hle hat
  have hinits : path ∈ [[], ["host"], ["host", "ips"]] := (List.mem_inits ..).2 (hle.trans hpath)
  simp only [List.mem_cons, List.not_mem_nil, or_false] at hinits
  rcases hinits with rfl | rfl | rfl
  · cases Option.some.inj hat
  · cases Option.some.inj hat
  · refine ⟨(hle.eq_of_length_le hpath.length_le), ?_⟩
    obtain rfl := Json.array.inj (Option.some.inj hat)
    exact List.forall_mem_singleton.2 ⟨rfl, rfl⟩

/-- The order of the fields matters: a field can be set below one that has been set already only if
that one is an object, and an array of objects is none. -/
theorem pick_depends_on_order :
    ¬∀ (document : Row) (fields reordered : List Field), InOrder (.object document) →
      (fields.map Field.name).Nodup → fields.Perm reordered →
        (pick document fields).toOption = (pick document reordered).toOption := by
  intro h
  have hdocument : InOrder (.object [("a", .array [.object [("b", .bool true)]])]) :=
    .object (List.pairwise_singleton ..) (List.forall_mem_singleton.2 (.other rfl))
  have hsame := h [("a", .array [.object [("b", .bool true)]])]
    [Field.ofName "a" .json, Field.ofName "a.b" .boolean]
    [Field.ofName "a.b" .boolean, Field.ofName "a" .json] hdocument (by decide) (.swap ..)
  exact absurd (congrArg Option.isSome hsame) (by decide +kernel)

end Row

end ViewCompiler
