import ViewCompiler.Proofs.Sql.Closed
import ViewCompiler.Proofs.Sql.Limit
import ViewCompiler.Proofs.Sql.Where
import Mathlib.Data.List.Infix

/-!
# Where conditions are put

A statement takes conditions at a keyword. The search for it reads the masked statement from the
left and does not count parentheses.

* `Sql.Occurs`: a keyword stands at a place of a text.
* `Sql.findFrom_spec`: **a search finds the first place where a keyword stands.**
* `Sql.FirstAt`: the first keyword of its kind, where only the places of a level count.
* `Sql.Shape.Placed`: the keywords of a level decide where a statement takes conditions.
* `Sql.placed_iff`: **they do exactly if the keywords that are met first are on this level.**
* `Sql.Restriction.placed_topLevel_iff`: the same for the level outside of all parentheses, and what
  becomes of the condition that a statement has.
-/

namespace ViewCompiler

namespace Sql

/-! ### Keywords in a text -/

/-- The matcher takes the text between two places, and a word starts at the first of them. -/
structure Occurs (matcher : Matcher) (inWord : Bool) (cs : List Char) (span : Span) : Prop where
  letter : ∃ c, cs[span.start]? = some c ∧ Text.isWordChar c = true
  endsWord : EndsWord inWord (cs.take span.start)
  taken : ∃ rest, matcher (cs.drop span.start) = some rest ∧
    span.stop = span.start + ((cs.drop span.start).length - rest.length)

/-- The span further back in a text. -/
def Span.shift (position : Nat) (span : Span) : Span :=
  ⟨position + span.start, position + span.stop⟩

/-- Does a text end within a word, where `inWord` tells whether the character before belongs to
one? -/
def endsInWord (inWord : Bool) (before : List Char) : Bool :=
  (before.getLast?.map Text.isWordChar).getD inWord

theorem endsWord_iff {inWord : Bool} {before : List Char} :
    EndsWord inWord before ↔ endsInWord inWord before = false := by
  rcases List.eq_nil_or_concat' before with rfl | ⟨start, c, rfl⟩ <;> simp [EndsWord, endsInWord]

theorem endsInWord_append (inWord : Bool) (before more : List Char) :
    endsInWord inWord (before ++ more) = endsInWord (endsInWord inWord before) more := by
  rcases List.eq_nil_or_concat' more with rfl | ⟨start, c, rfl⟩
  · simp [endsInWord]
  · simp [endsInWord, ← List.append_assoc]

section

variable {matcher : Matcher} {inWord : Bool} {cs front back : List Char} {span other : Span}

theorem Occurs.start_lt (h : Occurs matcher inWord cs span) : span.start < cs.length := by
  obtain ⟨c, hc, -⟩ := h.letter
  exact (List.getElem?_eq_some_iff.1 hc).1

theorem Occurs.eq_of_start_eq (h : Occurs matcher inWord cs span)
    (hother : Occurs matcher inWord cs other) (hstart : span.start = other.start) :
    span = other := by
  obtain ⟨rest, hrest, hstop⟩ := h.taken
  obtain ⟨rest', hrest', hstop'⟩ := hother.taken
  rw [hstart, hrest'] at hrest
  obtain rfl := Option.some.inj hrest
  obtain ⟨start, stop⟩ := span
  obtain ⟨start', stop'⟩ := other
  obtain rfl : start = start' := hstart
  rw [Span.mk.injEq]
  exact ⟨rfl, hstop.trans hstop'.symm⟩

theorem not_occurs_nil : ¬Occurs matcher inWord [] span := fun h => by
  simpa using h.start_lt

theorem occurs_append_shift :
    Occurs matcher inWord (front ++ back) (span.shift front.length) ↔
      Occurs matcher (endsInWord inWord front) back span := by
  have hletter : (front ++ back)[front.length + span.start]? = back[span.start]? := by
    rw [List.getElem?_append_right (Nat.le_add_right ..), Nat.add_sub_cancel_left]
  have htake : (front ++ back).take (front.length + span.start) =
      front ++ back.take span.start := List.take_length_add_append span.start
  have hdrop : (front ++ back).drop (front.length + span.start) = back.drop span.start :=
    List.drop_length_add_append span.start
  constructor
  · rintro ⟨hstarts, hends, rest, hrest, hstop⟩
    simp only [Span.shift, hletter, htake, hdrop] at hstarts hends hrest hstop
    rw [endsWord_iff, endsInWord_append] at hends
    exact ⟨hstarts, endsWord_iff.2 hends, rest, hrest, by omega⟩
  · rintro ⟨hstarts, hends, rest, hrest, hstop⟩
    rw [endsWord_iff, ← endsInWord_append] at hends
    refine ⟨by simpa only [Span.shift, hletter] using hstarts,
      by simpa only [Span.shift, htake] using endsWord_iff.2 hends, rest, ?_, ?_⟩
    · simpa only [Span.shift, hdrop] using hrest
    · simp only [Span.shift, hdrop]
      omega

theorem occurs_cons_shift {c : Char} :
    Occurs matcher inWord (c :: back) (span.shift 1) ↔
      Occurs matcher (Text.isWordChar c) back span :=
  @occurs_append_shift matcher inWord [c] back span

theorem exists_shift_of_le {position : Nat} (h : Occurs matcher inWord cs span)
    (hle : position ≤ span.start) : ∃ rest, span = Span.shift position rest := by
  obtain ⟨rest, -, hstop⟩ := h.taken
  refine ⟨⟨span.start - position, span.stop - position⟩, ?_⟩
  obtain ⟨start, stop⟩ := span
  simp only [Span.shift, Span.mk.injEq]
  dsimp only at hle hstop
  omega

theorem Occurs.exists_later {c : Char} {rest : List Char}
    (hhere : (if inWord || !Text.isWordChar c then none else matcher (c :: rest)) = none)
    (h : Occurs matcher inWord (c :: rest) span) :
    ∃ later, span = Span.shift 1 later ∧ Occurs matcher (Text.isWordChar c) rest later := by
  obtain ⟨start, stop⟩ := span
  have hpos : 1 ≤ start := by
    by_contra hzero
    obtain rfl : start = 0 := by omega
    obtain ⟨⟨d, hd, hword⟩, hends, after, hafter, -⟩ := h
    obtain rfl : c = d := by simpa using hd
    have hin : inWord = false := hends.1 rfl
    rw [List.drop_zero] at hafter
    simp [hin, hword, hafter] at hhere
  obtain ⟨later, hshift⟩ := exists_shift_of_le h hpos
  rw [hshift] at h
  exact ⟨later, hshift, occurs_cons_shift.1 h⟩

/-- **A search finds the first place where a keyword stands**, and fails only if there is none.  The
induction is on the text; the place of a keyword in its rest is one further back in the whole. -/
theorem findFrom_spec (matcher : Matcher) (position : Nat) (inWord : Bool) (cs : List Char) :
    (findFrom matcher position inWord cs = none ∧ ∀ span, ¬Occurs matcher inWord cs span) ∨
      ∃ span, findFrom matcher position inWord cs = some (span.shift position) ∧
        Occurs matcher inWord cs span ∧
        ∀ other, Occurs matcher inWord cs other → span.start ≤ other.start := by
  induction cs generalizing position inWord with
  | nil => exact .inl ⟨rfl, fun _ => not_occurs_nil⟩
  | cons c rest ih =>
    rw [findFrom]
    cases hhere : if inWord || !Text.isWordChar c then none else matcher (c :: rest) with
    | some after =>
      split at hhere
      · cases hhere
      next hword =>
      simp only [Bool.or_eq_true, Bool.not_eq_true', not_or, Bool.not_eq_false,
        Bool.not_eq_true] at hword
      refine .inr ⟨⟨0, rest.length + 1 - after.length⟩, rfl, ⟨⟨c, rfl, hword.2⟩, ?_, after, ?_⟩,
        fun _ _ => Nat.zero_le _⟩
      · exact ⟨fun _ => hword.1, by simp⟩
      · exact ⟨hhere, by simp⟩
    | none =>
      rcases ih (position + 1) (Text.isWordChar c) with ⟨hnone, hnot⟩ | ⟨span, hfind, hspan, hfirst⟩
      · refine .inl ⟨hnone, fun span hspan => ?_⟩
        obtain ⟨later, -, hoccurs⟩ := hspan.exists_later hhere
        exact hnot later hoccurs
      · refine .inr ⟨span.shift 1, ?_, occurs_cons_shift.2 hspan, ?_⟩
        · simp only [hfind, Span.shift, Nat.add_assoc]
        · intro other hother
          obtain ⟨later, rfl, hoccurs⟩ := hother.exists_later hhere
          exact Nat.add_le_add_left (hfirst later hoccurs) 1

end

/-- The first keyword of its kind at or behind a place, where only the places of a level count. -/
structure FirstAt (matcher : Matcher) (cs : List Char) (position : Nat) (level : Nat → Prop)
    (span : Span) : Prop where
  occurs : Occurs matcher false cs span
  position_le : position ≤ span.start
  level_start : level span.start
  first (other : Span) (h : Occurs matcher false cs other) (hle : position ≤ other.start)
    (hlevel : level other.start) : span.start ≤ other.start

/-- No keyword of its kind is at or behind a place, where only the places of a level count. -/
def NoneAt (matcher : Matcher) (cs : List Char) (position : Nat) (level : Nat → Prop) : Prop :=
  ∀ span, Occurs matcher false cs span → position ≤ span.start → ¬level span.start

/-- All places of a text. -/
def anyLevel : Nat → Prop := fun _ => True

section

variable {matcher : Matcher} {cs : List Char} {position : Nat} {level : Nat → Prop}
  {span other : Span}

theorem Occurs.stop_le {inWord : Bool} (h : Occurs matcher inWord cs span) :
    span.start ≤ span.stop ∧ span.stop ≤ cs.length := by
  obtain ⟨rest, -, hstop⟩ := h.taken
  have hlt := h.start_lt
  rw [List.length_drop] at hstop
  omega

theorem FirstAt.eq (h : FirstAt matcher cs position level span)
    (hother : FirstAt matcher cs position level other) : span = other :=
  h.occurs.eq_of_start_eq hother.occurs (Nat.le_antisymm
    (h.first other hother.occurs hother.position_le hother.level_start)
    (hother.first span h.occurs h.position_le h.level_start))

/-- The first keyword on any level is the first one on its own level. -/
theorem FirstAt.of_anyLevel (h : FirstAt matcher cs position anyLevel span)
    (hlevel : level span.start) : FirstAt matcher cs position level span :=
  ⟨h.occurs, h.position_le, hlevel, fun other hoccurs hle _ => h.first other hoccurs hle trivial⟩

theorem NoneAt.of_anyLevel (h : NoneAt matcher cs position anyLevel) :
    NoneAt matcher cs position level :=
  fun span hoccurs hle _ => h span hoccurs hle trivial

theorem find?_spec (matcher : Matcher) (cs : List Char) :
    (find? matcher cs = none ∧ NoneAt matcher cs 0 anyLevel) ∨
      ∃ span, find? matcher cs = some span ∧ FirstAt matcher cs 0 anyLevel span := by
  rcases findFrom_spec matcher 0 false cs with ⟨hnone, hnot⟩ | ⟨span, hfind, hspan, hfirst⟩
  · exact .inl ⟨hnone, fun span hoccurs => absurd hoccurs (hnot span)⟩
  · have hfound : find? matcher cs = some span := by
      rw [find?, hfind, Span.shift, Nat.zero_add, Nat.zero_add]
    exact .inr ⟨span, hfound, hspan, Nat.zero_le _, trivial, fun other hother _ _ =>
      hfirst other hother⟩

theorem noneAt_of_find?_eq_none (h : find? matcher cs = none) : NoneAt matcher cs 0 anyLevel := by
  rcases find?_spec matcher cs with ⟨-, hnone⟩ | ⟨span, hfind, -⟩
  · exact hnone
  · rw [h] at hfind
    cases hfind

theorem firstAt_of_find?_eq_some (h : find? matcher cs = some span) :
    FirstAt matcher cs 0 anyLevel span := by
  rcases find?_spec matcher cs with ⟨hnone, -⟩ | ⟨first, hfind, hfirst⟩
  · rw [h] at hnone
    cases hnone
  · rw [h] at hfind
    obtain rfl := Option.some.inj hfind
    exact hfirst

theorem findAfter?_spec (matcher : Matcher) (hpos : 0 < position) (hle : position ≤ cs.length) :
    (findAfter? matcher cs position = none ∧ NoneAt matcher cs position anyLevel) ∨
      ∃ span, findAfter? matcher cs position = some span ∧
        FirstAt matcher cs position anyLevel span := by
  have hlength : (cs.take position).length = position := List.length_take_of_le hle
  -- the search goes on behind the position and knows whether the position is within a word
  have hafter : findAfter? matcher cs position =
      findFrom matcher position (endsInWord false (cs.take position)) (cs.drop position) := by
    obtain ⟨c, hc⟩ : ∃ c, cs[position - 1]? = some c :=
      ⟨_, List.getElem?_eq_getElem (by omega)⟩
    rw [findAfter?, endsInWord, List.getLast?_take, if_neg (by omega), hc]
    rfl
  have hshift (span : Span) : Occurs matcher false cs (span.shift position) ↔
      Occurs matcher (endsInWord false (cs.take position)) (cs.drop position) span := by
    have hsplit :=
      @occurs_append_shift matcher false (cs.take position) (cs.drop position) span
    rwa [List.take_append_drop, hlength] at hsplit
  rcases findFrom_spec matcher position (endsInWord false (cs.take position))
    (cs.drop position) with ⟨hnone, hnot⟩ | ⟨span, hfind, hspan, hfirst⟩
  · refine .inl ⟨hafter.trans hnone, fun span hoccurs hstart _ => ?_⟩
    obtain ⟨later, rfl⟩ := exists_shift_of_le hoccurs hstart
    exact hnot later ((hshift later).1 hoccurs)
  · refine .inr ⟨span.shift position, hafter.trans hfind, (hshift span).2 hspan,
      Nat.le_add_right .., trivial, fun other hoccurs hstart _ => ?_⟩
    obtain ⟨later, rfl⟩ := exists_shift_of_le hoccurs hstart
    exact Nat.add_le_add_left (hfirst later ((hshift later).1 hoccurs)) position

end

/-! ### Where a statement takes conditions -/

/-- The condition of a statement that starts at a place ends before the first boundary behind it, or
else with the statement. -/
inductive ConditionEnds (shown : List Char) (level : Nat → Prop) (position : Nat) : Nat → Prop
  | boundary {span : Span} (h : FirstAt boundaryKeyword shown position level span) :
      ConditionEnds shown level position span.start
  | atEnd (h : NoneAt boundaryKeyword shown position level) :
      ConditionEnds shown level position shown.length

/-- A statement takes conditions behind its first `WHERE` on a level, whose condition becomes a
conjunct of its own, else before its first boundary on the level, else at its end. -/
inductive Shape.Placed (code shown : List Char) (level : Nat → Prop) : Shape → Prop
  | narrowed {keyword : Span} {stop : Nat} (hwhere : FirstAt whereKeyword shown 0 level keyword)
      (hstop : ConditionEnds shown level keyword.stop stop) :
      Placed code shown level (.narrowed (code.take keyword.start)
        ((code.take stop).drop keyword.stop) (code.drop stop))
  | divided {boundary : Span} (hwhere : NoneAt whereKeyword shown 0 level)
      (hboundary : FirstAt boundaryKeyword shown 0 level boundary) :
      Placed code shown level (.divided (code.take boundary.start) (code.drop boundary.start))
  | plain (hwhere : NoneAt whereKeyword shown 0 level)
      (hboundary : NoneAt boundaryKeyword shown 0 level) : Placed code shown level (.plain code)

/-- The keywords that a search meets first are on a level: the first `WHERE` and the first boundary
behind it, or the first boundary of all if there is no `WHERE`. -/
structure MeetsOn (shown : List Char) (level : Nat → Prop) : Prop where
  keyword {span : Span} (hwhere : FirstAt whereKeyword shown 0 anyLevel span) : level span.start
  behind {span boundary : Span} (hwhere : FirstAt whereKeyword shown 0 anyLevel span)
    (hboundary : FirstAt boundaryKeyword shown span.stop anyLevel boundary) : level boundary.start
  boundary {span : Span} (hwhere : NoneAt whereKeyword shown 0 anyLevel)
    (hboundary : FirstAt boundaryKeyword shown 0 anyLevel span) : level span.start

section

variable {code shown : List Char} {level : Nat → Prop} {position stop : Nat}

theorem ConditionEnds.le_length (h : ConditionEnds shown level position stop) :
    stop ≤ shown.length := by
  cases h with
  | boundary h => exact h.occurs.start_lt.le
  | atEnd => exact Nat.le_refl _

theorem exists_spelled {cs : List Char} {inWord : Bool} {span : Span}
    (h : Occurs whereKeyword inWord cs span) :
    ∃ taken, Spells ['w', 'h', 'e', 'r', 'e'] taken ∧
      cs.take span.stop = cs.take span.start ++ taken ∧
      span.stop = span.start + taken.length := by
  obtain ⟨rest, hrest, hstop⟩ := h.taken
  obtain ⟨taken, htaken, hspells⟩ := word_eq_some_iff.1 (whole_eq_some hrest)
  have hlength : span.stop = span.start + taken.length := by
    rw [hstop, htaken, List.length_append, Nat.add_sub_cancel]
  refine ⟨taken, hspells, ?_, hlength⟩
  rw [hlength, List.take_add, htaken, List.take_left]

/-- A shape is found by the keywords that are met first. -/
theorem placed_anyLevel {base : String}
    (hnested : Restriction.isNested ((body (cells .code base.toList)).map Cell.face) = false) :
    (Restriction.shape base).Placed (chars (body (cells .code base.toList)))
      ((body (cells .code base.toList)).map Cell.face) anyLevel := by
  have hlength : (chars (body (cells .code base.toList))).length =
      ((body (cells .code base.toList)).map Cell.face).length := by simp [chars]
  rw [Restriction.shape]
  generalize chars (body (cells .code base.toList)) = code at hlength ⊢
  generalize (body (cells .code base.toList)).map Cell.face = shown at hnested hlength ⊢
  simp only [hnested, Bool.false_eq_true, if_false]
  rcases find?_spec whereKeyword shown with ⟨hnone, hwhere⟩ | ⟨keyword, hfind, hwhere⟩
  · rw [hnone]
    rcases find?_spec boundaryKeyword shown with ⟨hnone, hboundary⟩ | ⟨span, hfind, hboundary⟩
    · simpa only [hnone] using Shape.Placed.plain hwhere hboundary
    · simpa only [hfind] using Shape.Placed.divided hwhere hboundary
  · rw [hfind]
    have hpos : 0 < keyword.stop := by
      obtain ⟨taken, hspells, -, hstop⟩ := exists_spelled hwhere.occurs
      have hfive : 5 = taken.length := hspells.length_eq
      omega
    rcases findAfter?_spec boundaryKeyword hpos hwhere.occurs.stop_le.2 with
      ⟨hnone, hboundary⟩ | ⟨span, hfind, hboundary⟩
    · simp only [hnone, hlength]
      exact .narrowed hwhere (.atEnd hboundary)
    · simp only [hfind]
      exact .narrowed hwhere (.boundary hboundary)

theorem eq_of_take_eq {i j : Nat} (hlength : code.length = shown.length) (hi : i < shown.length)
    (hj : j < shown.length) (h : code.take i = code.take j) : i = j := by
  have hlengths := congrArg List.length h
  rw [List.length_take, List.length_take] at hlengths
  omega

theorem eq_of_drop_eq {i j : Nat} (hlength : code.length = shown.length) (hi : i ≤ shown.length)
    (hj : j ≤ shown.length) (h : code.drop i = code.drop j) : i = j := by
  have hlengths := congrArg List.length h
  rw [List.length_drop, List.length_drop] at hlengths
  omega

/-- If the keywords of a level and those of all levels end a condition at the same place, then a
boundary that is met behind it is on this level. -/
theorem ConditionEnds.level_start {boundary : Span} {other : Nat}
    (hany : ConditionEnds shown anyLevel position stop)
    (hlevel : ConditionEnds shown level other stop)
    (hboundary : FirstAt boundaryKeyword shown position anyLevel boundary) :
    level boundary.start := by
  cases hany with
  | atEnd hnone => exact absurd trivial (hnone _ hboundary.occurs hboundary.position_le)
  | boundary hfirst =>
    rw [hboundary.eq hfirst]
    have hlt := hfirst.occurs.start_lt
    generalize Span.start _ = start at hlevel hlt ⊢
    cases hlevel with
    | atEnd => exact absurd hlt (Nat.lt_irrefl _)
    | boundary hfirst => exact hfirst.level_start

/-- If a statement takes conditions where the keywords of a level say so, then the keywords that are
met first are on this level: another keyword would divide the statement at another place. -/
theorem meetsOn_of_placed {shape : Shape} (hlength : code.length = shown.length)
    (h : shape.Placed code shown anyLevel) (hlevel : shape.Placed code shown level) :
    MeetsOn shown level := by
  cases h with
  | @narrowed keyword stop hwhere hstop =>
    generalize hshape : Shape.narrowed (code.take keyword.start)
      ((code.take stop).drop keyword.stop) (code.drop stop) = shape at hlevel
    cases hlevel with
    | divided => cases hshape
    | plain => cases hshape
    | narrowed hwhere' hstop' =>
      -- the parts are the same, and so are the places where the statement is cut
      obtain ⟨hbefore, -, hrest⟩ := Shape.narrowed.inj hshape
      have hstart := eq_of_take_eq hlength hwhere.occurs.start_lt hwhere'.occurs.start_lt hbefore
      obtain rfl := eq_of_drop_eq hlength hstop.le_length hstop'.le_length hrest
      refine ⟨fun hother => ?_, fun hother hboundary => ?_, fun hnone => ?_⟩
      · rw [hother.eq hwhere, hstart]
        exact hwhere'.level_start
      · rw [hother.eq hwhere] at hboundary
        exact hstop.level_start hstop' hboundary
      · exact absurd trivial (hnone keyword hwhere.occurs (Nat.zero_le _))
  | @divided boundary hwhere hboundary =>
    generalize hshape : Shape.divided (code.take boundary.start) (code.drop boundary.start) =
      shape at hlevel
    cases hlevel with
    | narrowed => cases hshape
    | plain => cases hshape
    | divided hwhere' hboundary' =>
      obtain ⟨hbefore, -⟩ := Shape.divided.inj hshape
      have hstart :=
        eq_of_take_eq hlength hboundary.occurs.start_lt hboundary'.occurs.start_lt hbefore
      refine ⟨fun hother => ?_, fun hother => ?_, fun _ hother => ?_⟩
      · exact absurd trivial (hwhere _ hother.occurs (Nat.zero_le _))
      · exact absurd trivial (hwhere _ hother.occurs (Nat.zero_le _))
      · rw [hother.eq hboundary, hstart]
        exact hboundary'.level_start
  | plain hwhere hboundary =>
    exact ⟨fun hother => absurd trivial (hwhere _ hother.occurs (Nat.zero_le _)),
      fun hother => absurd trivial (hwhere _ hother.occurs (Nat.zero_le _)),
      fun _ hother => absurd trivial (hboundary _ hother.occurs (Nat.zero_le _))⟩

theorem MeetsOn.placed {shape : Shape} (hmeets : MeetsOn shown level)
    (h : shape.Placed code shown anyLevel) : shape.Placed code shown level := by
  cases h with
  | narrowed hwhere hstop =>
    refine .narrowed (hwhere.of_anyLevel (hmeets.keyword hwhere)) ?_
    cases hstop with
    | boundary hfirst => exact .boundary (hfirst.of_anyLevel (hmeets.behind hwhere hfirst))
    | atEnd hnone => exact .atEnd hnone.of_anyLevel
  | divided hwhere hboundary =>
    exact .divided hwhere.of_anyLevel (hboundary.of_anyLevel (hmeets.boundary hwhere hboundary))
  | plain hwhere hboundary => exact .plain hwhere.of_anyLevel hboundary.of_anyLevel

/-- **The keywords of a level decide where a statement takes conditions exactly if** the keywords
that a search meets first are on this level. -/
theorem placed_iff {shape : Shape} (hlength : code.length = shown.length)
    (h : shape.Placed code shown anyLevel) :
    shape.Placed code shown level ↔ MeetsOn shown level :=
  ⟨meetsOn_of_placed hlength h, fun hmeets => hmeets.placed h⟩

end

/-! ### The top level -/

instance (cs : List Char) : Decidable (Balanced cs) :=
  decidable_of_iff (cs.count ')' = cs.count '(' ∧
      ∀ before ∈ cs.inits, before.count ')' ≤ before.count '(') (by
    simp only [List.mem_inits]
    exact ⟨fun ⟨hcount, hle⟩ => ⟨hcount, fun before after h => hle before ⟨after, h.symm⟩⟩,
      fun h => ⟨h.count, fun before ⟨after, hafter⟩ => h.count_le before after hafter.symm⟩⟩)

theorem Balanced.of_append_trailing {cs rest : List Char} (h : Balanced (cs ++ rest))
    (hrest : ∀ c ∈ rest, isTrailing c = true) : Balanced cs := by
  have hnone : ∀ c, isTrailing c = false → c ∉ rest := fun c hc hmem => by
    simp [hrest c hmem] at hc
  exact h.of_append (hnone '(' (by decide)) (hnone ')' (by decide))

/-- The place is outside of all parentheses of a balanced text. -/
def TopLevel (shown : List Char) (i : Nat) : Prop :=
  (shown.take i).count ')' = (shown.take i).count '('

theorem Spells.notMem {letters cs : List Char} {c : Char} (h : Spells letters cs)
    (hc : (letters.all fun letter => !isLetter letter c) = true) : c ∉ cs := by
  induction h with
  | nil => simp
  | cons hletter _ ih =>
    rw [List.all_cons, Bool.and_eq_true] at hc
    rw [List.mem_cons, not_or]
    refine ⟨fun heq => ?_, ih hc.2⟩
    rw [← heq] at hletter
    simp [hletter] at hc

section

variable {code shown : List Char} {keyword : Span} {stop : Nat}

theorem ConditionEnds.le {level : Nat → Prop} {position : Nat} (hle : position ≤ shown.length)
    (h : ConditionEnds shown level position stop) : position ≤ stop := by
  cases h with
  | boundary h => exact h.position_le
  | atEnd => exact hle

theorem balanced_condition (hbalanced : Balanced shown)
    (hwhere : FirstAt whereKeyword shown 0 (TopLevel shown) keyword)
    (hstop : ConditionEnds shown (TopLevel shown) keyword.stop stop) :
    Balanced ((shown.take stop).drop keyword.stop) := by
  have htop : (shown.take keyword.stop).count ')' = (shown.take keyword.stop).count '(' := by
    obtain ⟨taken, hspells, htake, -⟩ := exists_spelled hwhere.occurs
    rw [htake, List.count_append, List.count_append, hwhere.level_start,
      List.count_eq_zero.2 (hspells.notMem (by decide)),
      List.count_eq_zero.2 (hspells.notMem (by decide))]
  have hend : (shown.take stop).count ')' = (shown.take stop).count '(' := by
    cases hstop with
    | boundary h => exact h.level_start
    | atEnd => rw [List.take_length, hbalanced.count]
  have hsplit : shown.take keyword.stop ++ (shown.take stop).drop keyword.stop =
      shown.take stop := by
    conv_rhs => rw [← List.take_append_drop keyword.stop (shown.take stop), List.take_take,
      Nat.min_eq_left (hstop.le hwhere.occurs.stop_le.2)]
  refine ⟨?_, fun before after hcondition => ?_⟩
  · rw [← hsplit, List.count_append, List.count_append, htop] at hend
    exact Nat.add_left_cancel hend
  · -- the condition starts at depth 0, so its prefixes are as deep as those of the whole
    have hshown : shown = (shown.take keyword.stop ++ before) ++ (after ++ shown.drop stop) := by
      conv_lhs => rw [← List.take_append_drop stop shown, ← hsplit, hcondition]
      simp only [List.append_assoc]
    have hle := hbalanced.count_le _ _ hshown
    rw [List.count_append, List.count_append, htop] at hle
    exact Nat.le_of_add_le_add_left hle

/-- The condition of a statement is masked within the statement as it is for itself. -/
theorem faces_condition (hwhere : find? whereKeyword (faces code) = some keyword)
    (hle : keyword.stop ≤ stop) {level : Nat → Prop}
    (hstop : ConditionEnds (faces code) level keyword.stop stop) :
    faces ((code.take stop).drop keyword.stop) =
      ((faces code).take stop).drop keyword.stop := by
  have hbehind : cells .code (code.drop keyword.stop) = (cells .code code).drop keyword.stop :=
    (codeAt_behind_where hwhere).2.1
  rw [List.drop_take, List.drop_take]
  cases hstop with
  | atEnd =>
    have hlength : (faces code).length = code.length := by
      rw [faces, List.length_map, length_cells]
    rw [hlength, List.take_of_length_le (by simp), List.take_of_length_le (by simp [hlength]),
      faces, hbehind, List.map_drop]
    rfl
  | @boundary span h =>
    -- a keyword is code, so no token of the condition reaches over its end
    obtain ⟨c, hc, hword⟩ := h.occurs.letter
    have hat : CodeAt (code.drop keyword.stop) (span.start - keyword.stop) := by
      refine codeAt_of_isWordChar (c := c) ?_ hword
      rw [hbehind, List.map_drop, List.getElem?_drop, Nat.add_sub_cancel' hle]
      exact hc
    rw [faces, hat.cells_take, hbehind, List.map_take, List.map_drop]
    rfl

end

namespace Restriction

theorem toList_build_foldl {base : String} {predicates : List String}
    (hadded : added predicates ≠ []) :
    (predicates.foldl add { base }).build.toList =
      ((shape base).weave (added predicates)).text := by
  rw [conditions_foldl_add, toList_build (by simpa using hadded), weave]
  simp [Function.comp_def]

theorem balanced_body {base : String} (hbase : scanEnd .code base.toList = .code)
    (hbalanced : Balanced (faces base.toList)) :
    Balanced (faces (chars (body (cells .code base.toList)))) := by
  obtain ⟨rest, hsplit, -, hrest⟩ := body_spec (cells .code base.toList)
  have hfaces : faces base.toList =
      faces (chars (body (cells .code base.toList))) ++ rest.map Cell.face := by
    rw [faces, faces, (scanEnd_body hbase).1, ← List.map_append, ← hsplit]
  rw [hfaces] at hbalanced
  refine hbalanced.of_append_trailing (List.forall_mem_map.2 fun cell hcell => ?_)
  simpa [isTrailing] using hrest cell hcell

theorem not_isNested_of_placed {base : String} {shown : List Char} {level : Nat → Prop}
    (h : (shape base).Placed (chars (body (cells .code base.toList))) shown level) :
    isNested ((body (cells .code base.toList)).map Cell.face) = false := by
  by_contra hwrapped
  have hshape : shape base = .nested (chars (body (cells .code base.toList))) := by
    rw [shape, if_pos (by simpa using hwrapped)]
  rw [hshape] at h
  cases h

/-- The condition that a statement has at its top level is balanced, if the keywords that the search
meets first are there. -/
theorem balanced_existing {code before existing rest : List Char}
    (hbalanced : Balanced (faces code)) (hmeets : MeetsOn (faces code) (TopLevel (faces code)))
    (h : (Shape.narrowed before existing rest).Placed code (faces code) (TopLevel (faces code))) :
    Balanced (faces existing) := by
  cases h with
  | @narrowed keyword stop hwhere hstop =>
    cases hfind : find? whereKeyword (faces code) with
    | none =>
      have hnone := noneAt_of_find?_eq_none hfind
      exact absurd trivial (hnone keyword hwhere.occurs (Nat.zero_le _))
    | some first =>
      have hfirst := firstAt_of_find?_eq_some hfind
      obtain rfl : first = keyword := (hfirst.of_anyLevel (hmeets.keyword hfirst)).eq hwhere
      rw [faces_condition hfind (hstop.le hwhere.occurs.stop_le.2) hstop]
      exact balanced_condition hbalanced hwhere hstop

/-- **Conditions are put at the top level exactly if** the statement is not wrapped and the keywords
that the search meets first stand outside of parentheses: the first `WHERE` and the first boundary
behind it, or the first boundary of all. The condition that the statement has is then balanced, and
so it is kept as one conjunct. -/
theorem placed_topLevel_iff {base : String} {predicates : List String}
    (hbase : scanEnd .code base.toList = .code) (hbalanced : Balanced (faces base.toList))
    (hadded : added predicates ≠ []) :
    let code := chars (body (cells .code base.toList))
    (predicates.foldl add { base }).build.toList =
        ((shape base).weave (added predicates)).text ∧
      ((shape base).Placed code (faces code) (TopLevel (faces code)) ↔
        (Text.trimStart (faces code)).head? ≠ some '(' ∧
          countUpTo selectKeyword (faces code) 2 ≤ 1 ∧
          MeetsOn (faces code) (TopLevel (faces code))) ∧
      ∀ before existing rest, shape base = .narrowed before existing rest →
        (shape base).Placed code (faces code) (TopLevel (faces code)) →
          Balanced (faces existing) := by
  intro code
  have hfaces : faces code = (body (cells .code base.toList)).map Cell.face := by
    rw [faces, (scanEnd_body hbase).1]
  have hlength : code.length = (faces code).length := by rw [faces, List.length_map, length_cells]
  have hnested : isNested (faces code) = false ↔ (Text.trimStart (faces code)).head? ≠ some '(' ∧
      countUpTo selectKeyword (faces code) 2 ≤ 1 := by
    simp [isNested]
  have hany (h : isNested (faces code) = false) :
      (shape base).Placed code (faces code) anyLevel := by
    rw [hfaces] at h ⊢
    exact placed_anyLevel h
  have hflat (h : (shape base).Placed code (faces code) (TopLevel (faces code))) :
      isNested (faces code) = false :=
    hfaces ▸ not_isNested_of_placed h
  refine ⟨toList_build_foldl hadded, ?_, fun before existing rest hshape h => ?_⟩
  · rw [← and_assoc, ← hnested]
    constructor
    · intro h
      exact ⟨hflat h, (placed_iff hlength (hany (hflat h))).1 h⟩
    · rintro ⟨hplain, hmeets⟩
      exact (placed_iff hlength (hany hplain)).2 hmeets
  · have hmeets := (placed_iff hlength (hany (hflat h))).1 h
    rw [hshape] at h
    exact balanced_existing (balanced_body hbase hbalanced) hmeets h

/-- A window orders its rows within parentheses, and the search takes this for the end of the
statement. -/
theorem placed_topLevel_iff_window :
    let base := "SELECT a, row_number() OVER (ORDER BY ts) AS n FROM t"
    let code := chars (body (cells .code base.toList))
    scanEnd .code base.toList = .code ∧ Balanced (faces base.toList) ∧
      countUpTo selectKeyword (faces code) 2 ≤ 1 ∧
      ¬(shape base).Placed code (faces code) (TopLevel (faces code)) := by
  intro base code
  have hbase : scanEnd .code base.toList = .code := by decide
  have hbalanced : Balanced (faces base.toList) := by decide
  refine ⟨hbase, hbalanced, by decide, fun hplaced => ?_⟩
  have hadded : added ["a = 1"] ≠ [] := by decide
  obtain ⟨-, hiff, -⟩ := placed_topLevel_iff hbase hbalanced hadded
  obtain ⟨-, -, hmeets⟩ := hiff.1 hplaced
  have hwhere : find? whereKeyword (faces code) = none := by decide
  have hboundary : find? boundaryKeyword (faces code) = some ⟨29, 37⟩ := by decide
  have htop := hmeets.boundary (noneAt_of_find?_eq_none hwhere) (firstAt_of_find?_eq_some hboundary)
  exact absurd htop (by unfold TopLevel; decide)

end Restriction

end Sql

end ViewCompiler
