import ViewCompiler.Proofs.Filter.Condition
import ViewCompiler.Proofs.Sql.Literal
import ViewCompiler.Readers.Standard

/-!
# Conditions are closed

The condition of a filter becomes a part of a statement, so no name and no value may reach beyond
it. Numbers are the only part of a value that is not quoted, and there is one place where a number
does: a time offset is written behind a minus, so a negative one makes a comment of it.

* `Comparison.quotedTexts`: what the condition of a comparison quotes.
* `Comparison.closed_condition`: a comparison has a closed condition, unless it is a negative
  offset.
* `Comparison.opensComment_condition`: a negative offset opens a comment.
* `Filter.condition_closed`: **the condition of a legal filter is closed** and quotes what its
  leaves quote, unless a leaf is a negative offset; then a comment opens in it.
-/

namespace ViewCompiler

namespace Comparison

/-- The texts between quotes in the condition of a comparison: the name of its column and the texts
of its value; of an offset the name of the interval. -/
def quotedTexts (comparison : Comparison) : List (List Char) :=
  let column := Sql.enclosed '"' comparison.column.column.toList
  let value := comparison.value
  let text := value.string?.getD ""
  let pattern (start : String) : List Char :=
    Sql.enclosed '\'' (start ++ Sql.escapeLike text ++ "%").toList
  let (lower, upper) := Predicate.bounds value
  match comparison.operator with
  | .eq | .notEq | .gt | .gte | .lt | .lte => column :: Sql.literalTexts value
  | .isIn | .notIn => column :: (value.items?.getD []).flatMap Sql.literalTexts
  | .like | .notLike => [column, pattern "%"]
  | .startsWith | .notStartsWith => [column, pattern ""]
  | .regex => [column, Sql.enclosed '\'' text.toList]
  | .range | .between => column :: (Sql.literalTexts lower ++ Sql.literalTexts upper)
  | .outRange => column :: (Sql.literalTexts lower ++ column :: Sql.literalTexts upper)
  | .before => [column, Sql.enclosed '\'' (intervalUnit (Predicate.offset value).2).toList]
  | .exist | .notNull | .notExist | .null => [column]
  | .empty => [column, Sql.enclosed '\'' []]
  | .notEmpty => [column, column, Sql.enclosed '\'' []]
  | .fullText | .phrase | .all | .any => []

/-- The comparison is an offset from now with this amount. -/
def IsOffset (comparison : Comparison) (amount : Json.Number) : Prop :=
  comparison.operator = .before ∧
    ∃ unit, comparison.value = .array [.number amount, .string unit]

variable {comparison : Comparison} {text : String}

theorem closed_column (name : String) :
    Sql.Closed (Sql.quoteIdent name).toList [Sql.enclosed '"' name.toList] := by
  rw [Sql.quoteIdent, String.toList_ofList]
  exact Sql.closed_enclosed (.inr rfl) _

theorem closed_quoteString (text : String) :
    Sql.Closed (Sql.quoteString text).toList [Sql.enclosed '\'' text.toList] := by
  rw [Sql.quoteString, String.toList_ofList]
  exact Sql.closed_enclosed (.inl rfl) _

theorem closed_of_literal {value : Json} (h : comparison.literal value = .ok text) :
    Sql.Closed text.toList (Sql.literalTexts value) := by
  rw [literal] at h
  split at h
  · next found hfound =>
    obtain rfl := Except.ok.inj h
    exact Sql.closed_literal hfound
  · cases h

theorem closed_of_mapM_literal {items : List Json} {texts : List String}
    (h : items.mapM comparison.literal = .ok texts) :
    List.Forall₂ (fun text found => Sql.Closed text.toList found) texts
      (items.map Sql.literalTexts) := by
  induction items generalizing texts with
  | nil =>
    obtain rfl := Except.ok.inj h
    exact .nil
  | cons item rest ih =>
    obtain ⟨first, others, hfirst, hothers, rfl⟩ := Result.mapM_cons_eq_ok.1 h
    exact .cons (closed_of_literal hfirst) (ih hothers)

theorem closed_literals (h : comparison.literals = .ok text) :
    Sql.Closed text.toList
      ((comparison.value.items?.getD []).flatMap Sql.literalTexts) := by
  obtain ⟨texts, htexts, rfl⟩ := Result.map_eq_ok.1 h
  exact Sql.closed_join (by decide) (by decide) (closed_of_mapM_literal htexts)

theorem closed_suffix (name suffix : String)
    (hplain : suffix.toList.all Sql.isPlain = true) :
    Sql.Closed ((Sql.quoteIdent name).toList ++ suffix.toList)
      [Sql.enclosed '"' name.toList] :=
  (closed_column name).append (Sql.closed_of_isPlain hplain)
    (Sql.apart_of_unmarked (Sql.unmarked_of_isPlain hplain))

theorem closed_sign (name sign : String) (hplain : sign.toList.all Sql.isPlain = true)
    (hne : sign.toList ≠ []) {rest : List Char} {found : List (List Char)}
    (h : Sql.Closed rest found) :
    Sql.Closed ((Sql.quoteIdent name).toList ++ sign.toList ++ rest)
      (Sql.enclosed '"' name.toList :: found) :=
  (closed_column name).append_plain _ hplain hne h

theorem enclosed_intervalUnit (unit : String) :
    Sql.enclosed '\'' (intervalUnit unit).toList =
      '\'' :: ((intervalUnit unit).toList ++ ['\'']) := by
  rw [intervalUnit]
  split_ifs <;> simp [Sql.enclosed, Sql.doubled]

/-- How an offset is written. -/
theorem offset_condition {amount : Json.Number} (hoffset : comparison.IsOffset amount)
    (h : comparison.condition = .ok text) :
    text.toList = (Sql.quoteIdent comparison.column.column).toList ++ " < date_add".toList ++
      ('(' :: (Sql.enclosed '\'' (intervalUnit (Predicate.offset comparison.value).2).toList ++
        ", ".toList ++ '-' :: amount.text ++ ", now()".toList ++ [')'])) := by
  obtain ⟨hoperator, unit, hvalue⟩ := hoffset
  rw [condition] at h
  split at h
  · cases h
  simp only [hoperator] at h
  obtain rfl := Except.ok.inj h
  rw [enclosed_intervalUnit]
  simp [hvalue, Predicate.offset, Predicate.bounds, Json.items?, Json.compact, Json.compactChars,
    Json.scalarText]

/-- **A comparison has a closed condition**, if it is no negative offset. -/
theorem closed_condition (h : comparison.condition = .ok text)
    (hoffset : comparison.operator = .before →
      ∃ amount, comparison.IsOffset amount ∧ amount.isNegative = false) :
    Sql.Closed text.toList comparison.quotedTexts := by
  have hcondition := h
  rw [condition] at h
  split at h
  · cases h
  have hcolumn := closed_column comparison.column.column
  rw [quotedTexts]
  cases hoperator : comparison.operator <;> simp only [hoperator] at h ⊢
  case fullText | phrase | all | any => cases h
  case eq | notEq | gt | gte | lt | lte =>
    obtain ⟨literal, hliteral, rfl⟩ := Result.map_eq_ok.1 h
    rw [String.toList_append, String.toList_append]
    exact closed_sign _ _ (by decide) (by decide) (closed_of_literal hliteral)
  case isIn =>
    obtain ⟨literals, hliterals, rfl⟩ := Result.map_eq_ok.1 h
    simpa using closed_sign comparison.column.column " IN " (by decide) (by decide)
      (closed_literals hliterals).group
  case notIn =>
    obtain ⟨literals, hliterals, rfl⟩ := Result.map_eq_ok.1 h
    simpa using closed_sign comparison.column.column " NOT IN " (by decide) (by decide)
      (closed_literals hliterals).group
  case like | notLike | startsWith | notStartsWith =>
    obtain rfl := Except.ok.inj h
    rw [String.toList_append, String.toList_append]
    exact closed_sign _ _ (by decide) (by decide) (closed_quoteString _)
  case regex =>
    obtain rfl := Except.ok.inj h
    have harguments := hcolumn.append_plain ", ".toList (by decide) (by decide)
      (closed_quoteString (comparison.value.string?.getD ""))
    have hname : Sql.Closed "regexp_like".toList [] := Sql.closed_of_isPlain (by decide)
    simpa using hname.append harguments.group (Sql.apart_of_unmarked_left (by decide))
  case range | between =>
    obtain ⟨lower, hlower, h⟩ := Result.bind_eq_ok.1 h
    obtain ⟨upper, hupper, h⟩ := Result.bind_eq_ok.1 h
    obtain rfl := Except.ok.inj h
    have hfront := closed_sign comparison.column.column " BETWEEN " (by decide)
      (by decide) (closed_of_literal hlower)
    simpa using hfront.append_plain " AND ".toList (by decide) (by decide)
      (closed_of_literal hupper)
  case outRange =>
    obtain ⟨lower, hlower, h⟩ := Result.bind_eq_ok.1 h
    obtain ⟨upper, hupper, h⟩ := Result.bind_eq_ok.1 h
    obtain rfl := Except.ok.inj h
    have hbelow := closed_sign comparison.column.column " < " (by decide)
      (by decide) (closed_of_literal hlower)
    have habove := closed_sign comparison.column.column " > " (by decide)
      (by decide) (closed_of_literal hupper)
    simpa using (hbelow.append_plain " OR ".toList (by decide) (by decide) habove).group
  case before =>
    obtain ⟨amount, hgiven, hnegative⟩ := hoffset hoperator
    rw [offset_condition hgiven hcondition]
    obtain ⟨body, hbody, hhead, htext⟩ := amount.exists_unsigned
    rw [if_neg (by simp [hnegative])] at htext
    have hminus : Sql.Closed ('-' :: amount.text) [] := by
      rw [htext]
      exact (Sql.closed_sign (.inr rfl)).append hbody fun _ y _ hy => .inr (hhead y hy)
    have hunit := Sql.closed_enclosed (.inl rfl)
      (intervalUnit (Predicate.offset comparison.value).2).toList
    have hoffset := hunit.append_plain ", ".toList (by decide) (by decide) hminus
    have hnow : Sql.Closed ", now()".toList [] := by
      have hname : Sql.Closed ", now".toList [] := Sql.closed_of_isPlain (by decide)
      have hempty : Sql.Closed [] [] := Sql.closed_of_isPlain (by decide)
      simpa using hname.append hempty.group (Sql.apart_of_unmarked_left (by decide))
    exact closed_sign _ _ (by decide) (by decide)
      (hoffset.append hnow (Sql.apart_of_unmarked (by decide))).group
  case exist | notNull | notExist | null =>
    obtain rfl := Except.ok.inj h
    rw [String.toList_append]
    exact closed_suffix _ _ (by decide)
  case empty =>
    obtain rfl := Except.ok.inj h
    simpa [Sql.quoteString, Sql.enclosed, Sql.doubled] using
      closed_sign comparison.column.column " = " (by decide) (by decide) (closed_quoteString "")
  case notEmpty =>
    obtain rfl := Except.ok.inj h
    have hnull := closed_suffix comparison.column.column " IS NOT NULL" (by decide)
    have hempty := closed_sign comparison.column.column " <> " (by decide)
      (by decide) (closed_quoteString "")
    simpa [Sql.quoteString, Sql.enclosed, Sql.doubled] using
      (hnull.append_plain " AND ".toList (by decide) (by decide) hempty).group

/-- **A negative offset opens a comment** in its condition. -/
theorem opensComment_condition (h : comparison.condition = .ok text) {amount : Json.Number}
    (hoffset : comparison.IsOffset amount) (hnegative : amount.isNegative = true) :
    Sql.OpensComment text.toList := by
  obtain ⟨body, -, -, htext⟩ := amount.exists_unsigned
  rw [if_pos hnegative] at htext
  have hcolumn := (closed_column comparison.column.column).toLexed
  have hunit := (Sql.closed_enclosed (.inl rfl)
    (intervalUnit (Predicate.offset comparison.value).2).toList).toLexed
  -- up to the comma behind the interval the condition is read in code
  have hcall : Sql.Lexed " < date_add(".toList [] := Sql.lexed_of_unmarked (by decide)
  have hcomma : Sql.Lexed [','] [] := Sql.lexed_of_unmarked (by decide)
  have harguments := hunit.append hcomma (Sql.apart_of_unmarked (by decide))
  have hfront := hcolumn.append (hcall.append harguments (Sql.apart_of_unmarked_left (by decide)))
    fun _ y _ hy => .inr (by simp at hy; exact hy ▸ rfl)
  refine ⟨_, body ++ ", now())".toList, ?_, hfront.scanEnd_eq⟩
  rw [offset_condition hoffset h, htext]
  simp

end Comparison

/-! ### Trees -/

namespace Predicate

theorem closed_joined {separator : String} (hplain : separator.toList.all Sql.isPlain = true)
    (hne : separator.toList ≠ []) {texts : List String} {quoted : List (List (List Char))}
    (h : List.Forall₂ (fun text found => Sql.Closed text.toList found) texts quoted) :
    Sql.Closed (joined separator texts).toList quoted.flatten := by
  have hwhole := Sql.closed_join hplain hne h
  cases h with
  | nil =>
    have halways : Sql.Closed "1 = 1".toList [] := Sql.closed_of_isPlain (by decide)
    exact halways
  | cons hfirst hrest =>
    cases hrest with
    | nil => simpa [joined, Text.join] using hwhole
    | cons hsecond hmore =>
      rw [joined, String.toList_append, String.toList_append]
      · exact hwhole.group
      all_goals simp

mutual

/-- **A predicate has a closed condition**, if none of its comparisons is a negative offset. -/
theorem closed_condition {predicate : Predicate} {text : String}
    (h : predicate.condition = .ok text)
    (hoffset : ∀ comparison ∈ predicate.comparisons, comparison.operator = .before →
      ∃ amount, comparison.IsOffset amount ∧ amount.isNegative = false) :
    Sql.Closed text.toList (predicate.comparisons.flatMap Comparison.quotedTexts) := by
  match predicate with
  | .leaf comparison =>
    simpa [comparisons] using comparison.closed_condition h (hoffset _ List.mem_cons_self)
  | .all parts | .any parts =>
    rw [condition] at h
    obtain ⟨texts, htexts, rfl⟩ := Result.map_eq_ok.1 h
    obtain ⟨quoted, hclosed, hquoted⟩ := closed_conditions htexts hoffset
    rw [comparisons, ← hquoted]
    exact closed_joined (by decide) (by decide) hclosed

theorem closed_conditions {predicates : List Predicate} {texts : List String}
    (h : conditions predicates = .ok texts)
    (hoffset : ∀ comparison ∈ comparisonsOf predicates, comparison.operator = .before →
      ∃ amount, comparison.IsOffset amount ∧ amount.isNegative = false) :
    ∃ quoted, List.Forall₂ (fun text found => Sql.Closed text.toList found) texts quoted ∧
      quoted.flatten = (comparisonsOf predicates).flatMap Comparison.quotedTexts := by
  match predicates with
  | [] =>
    obtain rfl := Except.ok.inj h
    exact ⟨[], .nil, rfl⟩
  | part :: rest =>
    rw [conditions] at h
    obtain ⟨text, htext, h⟩ := Result.bind_eq_ok.1 h
    obtain ⟨others, hothers, h⟩ := Result.bind_eq_ok.1 h
    obtain rfl := Except.ok.inj h
    rw [comparisonsOf, List.forall_mem_append] at hoffset
    obtain ⟨quoted, hclosed, hquoted⟩ := closed_conditions hothers hoffset.2
    have hpart := closed_condition htext hoffset.1
    refine ⟨_, .cons hpart hclosed, ?_⟩
    rw [List.flatten_cons, hquoted, comparisonsOf, List.flatMap_append]

end

/-- A comment that opens in one of the conditions opens in the joined ones, if those before it are
closed. -/
theorem opensComment_joined {separator : String} (hplain : separator.toList.all Sql.isPlain = true)
    (hne : separator.toList ≠ []) {text : String} {front back : List String}
    {quoted : List (List (List Char))}
    (hfront : List.Forall₂ (fun text found => Sql.Closed text.toList found) front quoted)
    (h : Sql.OpensComment text.toList) :
    Sql.OpensComment (joined separator (front ++ text :: back)).toList := by
  have hwhole : Sql.OpensComment (Text.join separator (front ++ text :: back)).toList :=
    Sql.OpensComment.join hplain hne hfront h
  have hsplit : front ++ text :: back = [text] ∨
      ∃ first second rest, front ++ text :: back = first :: second :: rest := by
    rcases front with - | ⟨first, - | ⟨second, front⟩⟩
    · cases back <;> simp
    · exact .inr ⟨_, _, _, rfl⟩
    · exact .inr ⟨_, _, _, rfl⟩
  rcases hsplit with hsplit | ⟨first, second, rest, hsplit⟩
  · rw [hsplit]
    exact h
  · rw [hsplit] at hwhole ⊢
    have hopening : Sql.Lexed "(".toList [] := Sql.lexed_of_unmarked (by decide)
    rw [joined, String.toList_append, String.toList_append]
    · exact (hwhole.append_right hopening (Sql.apart_of_unmarked_left (by decide))).append_left _
    all_goals simp

mutual

/-- **A negative offset opens a comment** in the condition of its predicate. -/
theorem opensComment_condition {predicate : Predicate} {text : String}
    (h : predicate.condition = .ok text)
    (hoffset : ∀ comparison ∈ predicate.comparisons, comparison.operator = .before →
      ∃ amount, comparison.IsOffset amount)
    (hnegative : ∃ comparison ∈ predicate.comparisons,
      ∃ amount, comparison.IsOffset amount ∧ amount.isNegative = true) :
    Sql.OpensComment text.toList := by
  match predicate with
  | .leaf comparison =>
    obtain ⟨_, hmem, amount, hamount, hnegative⟩ := hnegative
    obtain rfl := List.mem_singleton.1 hmem
    exact Comparison.opensComment_condition h hamount hnegative
  | .all parts | .any parts =>
    rw [condition] at h
    obtain ⟨texts, htexts, rfl⟩ := Result.map_eq_ok.1 h
    obtain ⟨front, text, back, quoted, rfl, hclosed, hopens⟩ :=
      opensComment_conditions htexts hoffset hnegative
    exact opensComment_joined (by decide) (by decide) hclosed hopens

theorem opensComment_conditions {predicates : List Predicate} {texts : List String}
    (h : conditions predicates = .ok texts)
    (hoffset : ∀ comparison ∈ comparisonsOf predicates, comparison.operator = .before →
      ∃ amount, comparison.IsOffset amount)
    (hnegative : ∃ comparison ∈ comparisonsOf predicates,
      ∃ amount, comparison.IsOffset amount ∧ amount.isNegative = true) :
    ∃ front text back quoted, texts = front ++ text :: back ∧
      List.Forall₂ (fun text found => Sql.Closed text.toList found) front quoted ∧
      Sql.OpensComment text.toList := by
  match predicates with
  | [] =>
    obtain ⟨comparison, hmem, -⟩ := hnegative
    exact absurd hmem List.not_mem_nil
  | part :: rest =>
    rw [conditions] at h
    obtain ⟨text, htext, h⟩ := Result.bind_eq_ok.1 h
    obtain ⟨others, hothers, h⟩ := Result.bind_eq_ok.1 h
    obtain rfl := Except.ok.inj h
    rw [comparisonsOf] at hnegative hoffset
    rw [List.forall_mem_append] at hoffset
    by_cases hpart : ∃ comparison ∈ part.comparisons,
        ∃ amount, comparison.IsOffset amount ∧ amount.isNegative = true
    · have hopens := opensComment_condition htext hoffset.1 hpart
      exact ⟨[], text, others, [], rfl, .nil, hopens⟩
    · have hclosed := closed_condition htext fun comparison hcomparison hbefore => by
        obtain ⟨amount, hamount⟩ := hoffset.1 comparison hcomparison hbefore
        refine ⟨amount, hamount, ?_⟩
        by_contra hnot
        exact hpart ⟨comparison, hcomparison, amount, hamount, by simpa using hnot⟩
      have hrest : ∃ comparison ∈ comparisonsOf rest,
          ∃ amount, comparison.IsOffset amount ∧ amount.isNegative = true := by
        obtain ⟨comparison, hmem, hamount⟩ := hnegative
        rcases List.mem_append.1 hmem with hmem | hmem
        · exact absurd ⟨comparison, hmem, hamount⟩ hpart
        · exact ⟨comparison, hmem, hamount⟩
      obtain ⟨front, found, back, quoted, rfl, hfront, hopens⟩ :=
        opensComment_conditions hothers hoffset.2 hrest
      exact ⟨text :: front, found, back, _, rfl, .cons hclosed hfront, hopens⟩

end

end Predicate

namespace Filter

variable {addressing : Addressing} {fields : FieldSet} {max : Nat} {filter : Filter}

/-- The leaf compares with a time that lies ahead by a negative amount. -/
def IsNegativeOffset (leaf : Filter × Operator) : Prop :=
  leaf.2 = .before ∧
    ∃ amount unit, leaf.1.value = some (.array [.number amount, .string unit]) ∧
      amount.isNegative = true

/-- A leaf that is no offset stands for a comparison that is none; a legal offset has an amount. -/
theorem isOffset_of_comparison [Readers] {leaf : Filter × Operator} {found : Comparison}
    (hlegal : LegalLeaf fields leaf) (hfound : comparison addressing fields leaf = .ok found) :
    (found.operator = .before → ∃ amount, found.IsOffset amount) ∧
      (IsNegativeOffset leaf ↔ ∃ amount, found.IsOffset amount ∧ amount.isNegative = true) := by
  obtain ⟨column, -, rfl⟩ := Result.map_eq_ok.1 hfound
  refine ⟨fun hbefore => ?_, ?_⟩
  · obtain ⟨amount, unit, hvalue⟩ := hlegal.exists_offset hbefore
    exact ⟨amount, hbefore, unit, by simp [hvalue]⟩
  · constructor
    · rintro ⟨hbefore, amount, unit, hvalue, hnegative⟩
      exact ⟨amount, ⟨hbefore, unit, by simp [hvalue]⟩, hnegative⟩
    · rintro ⟨amount, ⟨hbefore, unit, hvalue⟩, hnegative⟩
      refine ⟨hbefore, amount, unit, ?_, hnegative⟩
      cases hgiven : leaf.1.value with
      | none => simp [hgiven] at hvalue
      | some value => simpa [hgiven] using hvalue

/-- **The condition of a legal filter is closed**, whatever its names and values are, and quotes
what its leaves quote, unless a leaf is a negative offset: then a comment opens in the condition. -/
theorem condition_closed [Readers] {text : String} (hlegal : filter.check fields max = .ok ())
    (hcondition : condition? addressing fields (some filter) = .ok (some text)) :
    ((∀ leaf ∈ filter.leaves, ¬IsNegativeOffset leaf) →
      ∃ comparisons, filter.leaves.mapM (comparison addressing fields) = .ok comparisons ∧
        Sql.Closed text.toList (comparisons.flatMap Comparison.quotedTexts)) ∧
    ((∃ leaf ∈ filter.leaves, IsNegativeOffset leaf) →
      ∃ before after, text.toList = before ++ after ∧
        Sql.scanEnd .code before = .lineComment) := by
  obtain ⟨-, hnone⟩ | ⟨-, -, htree, predicate, -, heq, hcomparisons⟩ :=
    cases_of_check addressing hlegal
  · rw [condition?, hnone] at hcondition
    cases hcondition
  obtain ⟨found, hfound, hsome⟩ := Result.map_eq_ok.1 (heq.symm.trans hcondition)
  obtain rfl := Option.some.inj hsome
  have hoffset : ∀ comparison ∈ predicate.comparisons, comparison.operator = .before →
      ∃ amount, comparison.IsOffset amount := by
    intro comparison hcomparison
    obtain ⟨leaf, hleaf, hfound⟩ := Result.exists_of_mem_mapM_ok hcomparisons hcomparison
    exact (isOffset_of_comparison (legal_of_mem_leaves htree hleaf) hfound).1
  refine ⟨fun hnone => ⟨_, hcomparisons, predicate.closed_condition hfound ?_⟩, ?_⟩
  · intro comparison hcomparison hbefore
    obtain ⟨amount, hamount⟩ := hoffset comparison hcomparison hbefore
    refine ⟨amount, hamount, ?_⟩
    by_contra hnegative
    obtain ⟨leaf, hleaf, hfound⟩ := Result.exists_of_mem_mapM_ok hcomparisons hcomparison
    have hiff := (isOffset_of_comparison (legal_of_mem_leaves htree hleaf) hfound).2
    exact hnone leaf hleaf (hiff.2 ⟨amount, hamount, by simpa using hnegative⟩)
  · rintro ⟨leaf, hleaf, hnegative⟩
    obtain ⟨comparison, hcomparison, hfound'⟩ := Result.exists_mem_of_mapM_ok hcomparisons hleaf
    have hiff := (isOffset_of_comparison (legal_of_mem_leaves htree hleaf) hfound').2
    exact (predicate.opensComment_condition hfound hoffset
      ⟨comparison, hcomparison, hiff.1 hnegative⟩).exists_comment

/-- A name that closes its own quotes and goes on, beside a time. -/
def hostileFields : FieldSet := .ofList [.ofName "a\"; --" .keyword, .ofName "ts" .date]

/-- A value that closes its own quotes and goes on, beside a time that is some days ago. -/
def hostileValue (amount : Int) : Filter :=
  .conj
    [.leaf "a\"; --" "eq" (.string "') or 1=1; --"),
      .leaf "ts" "before" (.array [.int amount, .string "d"])]

/-- Neither the name nor the value reaches beyond its quotes; a negative amount does. -/
theorem condition_closed_hostileValue :
    (hostileValue 7).check hostileFields 10 = .ok () ∧
      (hostileValue (-7)).check hostileFields 10 = .ok () ∧
      (∃ text comparisons,
        condition? .byName hostileFields (some (hostileValue 7)) = .ok (some text) ∧
        (hostileValue 7).leaves.mapM (comparison .byName hostileFields) = .ok comparisons ∧
        Sql.Closed text.toList (comparisons.flatMap Comparison.quotedTexts)) ∧
      ∃ text before after,
        condition? .byName hostileFields (some (hostileValue (-7))) = .ok (some text) ∧
        text.toList = before ++ after ∧ Sql.scanEnd .code before = .lineComment := by
  have hlegal : (hostileValue 7).check hostileFields 10 = .ok () := rfl
  have hlegal' : (hostileValue (-7)).check hostileFields 10 = .ok () := rfl
  have hcondition : ∃ text,
      condition? .byName hostileFields (some (hostileValue 7)) = .ok (some text) := ⟨_, rfl⟩
  have hcondition' : ∃ text,
      condition? .byName hostileFields (some (hostileValue (-7))) = .ok (some text) := ⟨_, rfl⟩
  have hleaves (amount : Int) : (hostileValue amount).leaves =
      [(.leaf "a\"; --" "eq" (.string "') or 1=1; --"), .eq),
        (.leaf "ts" "before" (.array [.int amount, .string "d"]), .before)] := rfl
  obtain ⟨text, htext⟩ := hcondition
  obtain ⟨text', htext'⟩ := hcondition'
  refine ⟨hlegal, hlegal', ?_, ?_⟩
  · obtain ⟨comparisons, hcomparisons, hclosed⟩ := (condition_closed hlegal htext).1 (by
      rw [hleaves]
      simp [IsNegativeOffset, leaf, Json.int, Json.Number.isNegative])
    exact ⟨text, comparisons, htext, hcomparisons, hclosed⟩
  · obtain ⟨before, after, hsplit, hend⟩ := (condition_closed hlegal' htext').2 (by
      rw [hleaves]
      exact ⟨_, List.mem_cons_of_mem _ List.mem_cons_self, rfl, .int (-7), "d", rfl, rfl⟩)
    exact ⟨text', before, after, htext', hsplit, hend⟩

end Filter

end ViewCompiler
