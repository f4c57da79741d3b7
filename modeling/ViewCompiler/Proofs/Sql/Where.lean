import ViewCompiler.Proofs.Sql.Keyword
import ViewCompiler.Sql.Where

/-!
# Conditions woven into statements

A narrowed statement consists of texts of the caller with added words between them.

* `Sql.Weave`: such a sequence; `Sql.Weave.Shows` says that the statement as a whole is masked as
  its parts are, so that every added word is code and no text reaches into the next word.
* `Sql.Weave.shows_iff`: **a weave shows its words exactly if every text of it ends in code**.
* `Sql.Restriction.weave`: the weave of a narrowed statement.
* `Sql.Restriction.build_shows_iff`: **the conditions are never swallowed** unless a text ends with
  a line comment when the blanks at its end have been taken off.
-/

namespace ViewCompiler

namespace Sql

/-! ### Weaves -/

/-- Texts with added words between them. -/
structure Weave where
  /-- The text before the first word. -/
  first : List Char
  /-- The words, each with the text behind it. -/
  parts : List (List Char × List Char)
  deriving DecidableEq, Repr

namespace Weave

/-- The words and texts in a row. -/
def text (weave : Weave) : List Char :=
  weave.first ++ weave.parts.flatMap fun part => part.1 ++ part.2

/-- The cells of the words and texts in a row: the words are code, and every text is scanned for
itself. -/
def cells (weave : Weave) : List Cell :=
  Sql.cells .code weave.first ++
    weave.parts.flatMap fun part => part.1.map shown ++ Sql.cells .code part.2

/-- The whole is masked as its parts are, and ends in code. -/
def Shows (weave : Weave) : Prop :=
  Sql.cells .code weave.text = weave.cells ∧ scanEnd .code weave.text = .code

/-- A text that is code throughout and joins to other texts. -/
structure IsWord (word : List Char) : Prop where
  first : ∃ c ∈ word.head?, isMark c = false ∧ c ≠ '\n'
  last : ∀ c ∈ word.getLast?, isMark c = false
  cells : Sql.cells .code word = word.map shown
  scanEnd : Sql.scanEnd .code word = .code

instance (word : List Char) : Decidable (IsWord word) :=
  decidable_of_iff ((word.head?.any fun c => !isMark c && c != '\n') = true ∧
      (word.getLast?.all fun c => !isMark c) = true ∧ Sql.cells .code word = word.map shown ∧
      Sql.scanEnd .code word = .code) (by
    simp only [Option.any_eq_true, Option.all_eq_true, Bool.and_eq_true, Bool.not_eq_true',
      bne_iff_ne]
    exact ⟨fun ⟨first, last, cells, scanEnd⟩ => ⟨first, last, cells, scanEnd⟩,
      fun ⟨first, last, cells, scanEnd⟩ => ⟨first, last, cells, scanEnd⟩⟩)

variable {state : Scan} {before word behind : List Char}

/-- A word is scanned for itself, and so is what follows it. -/
theorem scan_word (hproper : state.Proper) (hword : IsWord word) (before behind : List Char) :
    let start := Sql.scanEnd state before
    let stop := Sql.scanEnd start word
    Sql.cells state (before ++ (word ++ behind)) =
        Sql.cells state before ++ (Sql.cells start word ++ Sql.cells stop behind) ∧
      Sql.scanEnd state (before ++ (word ++ behind)) = Sql.scanEnd stop behind := by
  obtain ⟨c, hfirst, hmark, -⟩ := hword.first
  have hhead : (word ++ behind).head? = some c := by
    rw [List.head?_append, hfirst, Option.some_or]
  have hcut : Cut state before (word ++ behind) :=
    cut_of_notMark hproper fun x y _ hy => .inr (Option.some.inj (hhead ▸ hy) ▸ hmark)
  have hcut' : Cut (Sql.scanEnd state before) word behind :=
    cut_of_notMark (proper_scanEnd hproper _) fun x y hx _ => .inl (hword.last x hx)
  rw [hcut.cells_append, hcut.scanEnd_append, hcut'.cells_append, hcut'.scanEnd_append]
  exact ⟨rfl, rfl⟩

theorem scan_append_word (hword : IsWord word) (hbefore : Sql.scanEnd .code before = .code)
    (behind : List Char) :
    Sql.cells .code (before ++ (word ++ behind)) =
        Sql.cells .code before ++ (word.map shown ++ Sql.cells .code behind) ∧
      Sql.scanEnd .code (before ++ (word ++ behind)) = Sql.scanEnd .code behind := by
  simpa only [hbefore, hword.cells, hword.scanEnd] using scan_word proper_code hword before behind

theorem faces_append_word (hword : IsWord word) (hbefore : Sql.scanEnd .code before = .code)
    (behind : List Char) :
    faces (before ++ (word ++ behind)) = faces before ++ (word ++ faces behind) := by
  have hshown : (word.map shown).map Cell.face = word := by
    rw [List.map_map]
    exact List.map_id _
  rw [faces, (scan_append_word hword hbefore behind).1, List.map_append, List.map_append, hshown]
  rfl

theorem scanEnd_of_word_shown (hword : IsWord word) {cs : List Cell}
    (h : Sql.cells .code (before ++ (word ++ behind)) =
      Sql.cells .code before ++ (word.map shown ++ cs)) : Sql.scanEnd .code before = .code := by
  obtain ⟨c, hfirst, hmark, hline⟩ := hword.first
  obtain ⟨rest, rfl⟩ := List.head?_eq_some_iff.1 hfirst
  have hshown : (Sql.cells .code (before ++ (c :: rest ++ behind)))[before.length]? =
      some (shown c) := by
    rw [h, List.getElem?_append_right (by rw [length_cells]), length_cells, Nat.sub_self]
    rfl
  have hcut := cut_of_shown_first hshown
  rw [hcut.cells_append, List.append_cancel_left_eq] at h
  have hhead : (Sql.cells (Sql.scanEnd .code before) (c :: rest ++ behind)).head? =
      some (shown c) := by
    rw [h]
    rfl
  exact eq_code_of_shown (proper_scanEnd proper_code _) hhead hline hmark

/-- **A weave shows its words exactly if every text of it ends in code.**  The induction is on the
words; the text before the first of them grows by a word and a text at each step. -/
theorem shows_iff {first : List Char} {parts : List (List Char × List Char)}
    (hwords : ∀ part ∈ parts, IsWord part.1) :
    Shows ⟨first, parts⟩ ↔ Sql.scanEnd .code first = .code ∧
      ∀ part ∈ parts, Sql.scanEnd .code part.2 = .code := by
  induction parts generalizing first with
  | nil => simp [Shows, text, cells]
  | cons part rest ih =>
    obtain ⟨word, behind⟩ := part
    rw [List.forall_mem_cons] at hwords
    have hstep (hfirst : Sql.scanEnd .code first = .code) :
        (Shows ⟨first, (word, behind) :: rest⟩ ↔ Shows ⟨first ++ (word ++ behind), rest⟩) ∧
          Sql.scanEnd .code (first ++ (word ++ behind)) = Sql.scanEnd .code behind := by
      obtain ⟨hcells, hend⟩ := scan_append_word hwords.1 hfirst behind
      refine ⟨?_, hend⟩
      simp only [Shows, text, cells, List.flatMap_cons, hcells, List.append_assoc]
    rw [List.forall_mem_cons]
    constructor
    · intro hshows
      have hcells := hshows.1
      simp only [text, cells, List.flatMap_cons, List.append_assoc] at hcells
      have hfirst := scanEnd_of_word_shown hwords.1 hcells
      obtain ⟨hiff, hend⟩ := hstep hfirst
      -- the first word and its text now belong to the text before the others
      obtain ⟨hbehind, hrest⟩ := (ih hwords.2).1 (hiff.1 hshows)
      exact ⟨hfirst, hend ▸ hbehind, hrest⟩
    · rintro ⟨hfirst, hbehind, hrest⟩
      obtain ⟨hiff, hend⟩ := hstep hfirst
      exact hiff.2 ((ih hwords.2).2 ⟨hend.trans hbehind, hrest⟩)

end Weave

/-! ### Narrowed statements -/

namespace Shape

open Weave (IsWord)

/-- The conditions behind a word, in parentheses unless a single one may stay bare, and what closes
them. -/
def conditionParts (word : List Char) (bare : Bool) (closing rest : List Char) :
    List (List Char) → List (List Char × List Char)
  | [] => []
  | condition :: others =>
    if bare && others.isEmpty then
      (word, condition) :: if closing.isEmpty then [] else [(closing, rest)]
    else
      (word ++ ['('], condition) ::
        (others.map fun condition => (") AND (".toList, condition)) ++ [(')' :: closing, rest)]

/-- The statement with conditions as a weave. -/
def weave (conditions : List (List Char)) : Shape → Weave
  | nested base =>
    ⟨[], ("SELECT * FROM (".toList, base) ::
      conditionParts ") AS subquery WHERE ".toList true [] [] conditions⟩
  | narrowed before existing rest =>
    let rest := Text.trim rest
    ⟨before, ("WHERE (".toList, Text.trim existing) ::
      conditionParts ") AND ".toList false (if rest.isEmpty then [] else [' ']) rest conditions⟩
  | divided before rest =>
    ⟨Text.trimEnd before, conditionParts " WHERE ".toList true [' '] rest conditions⟩
  | plain base => ⟨Text.trimEnd base, conditionParts " WHERE ".toList true [] [] conditions⟩

/-- The text of the statement that loses the blanks at its end to an added word. -/
def trimmed : Shape → List (List Char)
  | narrowed _ existing _ => [Text.trim existing]
  | divided before _ => [Text.trimEnd before]
  | _ => []

/-- The words that are added to statements. -/
def addedWords : List (List Char) :=
  ["SELECT * FROM (", ") AS subquery WHERE ", ") AS subquery WHERE (", "WHERE (", ") AND ",
    ") AND (", " WHERE ", " WHERE (", " ", ")", ") "].map String.toList

theorem mem_addedWords_conditionParts {word closing rest : List Char} {bare : Bool}
    {conditions : List (List Char)} (hword : word ∈ addedWords)
    (hopening : word ++ ['('] ∈ addedWords) (hclosing : closing = [] ∨ closing = [' ']) :
    ∀ part ∈ conditionParts word bare closing rest conditions, part.1 ∈ addedWords := by
  have hand : ") AND (".toList ∈ addedWords := by decide
  have hend : ')' :: closing ∈ addedWords := by rcases hclosing with rfl | rfl <;> decide
  cases conditions with
  | nil => simp [conditionParts]
  | cons condition others =>
    rw [conditionParts]
    split
    · rw [List.forall_mem_cons]
      refine ⟨hword, ?_⟩
      rcases hclosing with rfl | rfl <;> simp [addedWords]
    · rw [List.cons_append, List.forall_mem_cons, List.forall_mem_append, List.forall_mem_singleton,
        List.forall_mem_map]
      exact ⟨hopening, fun _ _ => hand, hend⟩

theorem mem_addedWords (shape : Shape) (conditions : List (List Char)) :
    ∀ part ∈ (shape.weave conditions).parts, part.1 ∈ addedWords := by
  cases shape with
  | nested =>
    have hfirst : "SELECT * FROM (".toList ∈ addedWords := by decide
    rw [weave, List.forall_mem_cons]
    exact ⟨hfirst, mem_addedWords_conditionParts (by decide) (by decide) (.inl rfl)⟩
  | narrowed =>
    have hfirst : "WHERE (".toList ∈ addedWords := by decide
    rw [weave, List.forall_mem_cons]
    refine ⟨hfirst, mem_addedWords_conditionParts (by decide) (by decide) ?_⟩
    -- only a rest that is not empty is set off by a blank
    split
    · exact .inl rfl
    · exact .inr rfl
  | divided => exact mem_addedWords_conditionParts (by decide) (by decide) (.inr rfl)
  | plain => exact mem_addedWords_conditionParts (by decide) (by decide) (.inl rfl)

theorem isWord_of_mem_addedWords : ∀ word ∈ addedWords, IsWord word := by decide

/-- The texts between the words are the conditions and the rest. -/
theorem texts_conditionParts {P : List Char → Prop} {word closing rest : List Char} {bare : Bool}
    {conditions : List (List Char)} (hrest : closing = [] → P rest) :
    (∀ part ∈ conditionParts word bare closing rest conditions, P part.2) ↔
      (∀ condition ∈ conditions, P condition) ∧ (conditions ≠ [] → P rest) := by
  cases conditions with
  | nil => simp [conditionParts]
  | cons condition others =>
    have hrest' : (condition :: others ≠ [] → P rest) ↔ P rest := by simp
    rw [conditionParts, List.forall_mem_cons, hrest', and_assoc]
    split
    · next hbare =>
      simp only [Bool.and_eq_true, List.isEmpty_iff] at hbare
      rw [List.forall_mem_cons, hbare.2]
      refine and_congr_right fun _ => ?_
      split
      · next hempty => simpa using hrest (List.isEmpty_iff.1 hempty)
      · simp
    · rw [List.cons_append, List.forall_mem_cons, List.forall_mem_append, List.forall_mem_singleton,
        List.forall_mem_map]

theorem scanEnd_conditionParts {word closing rest : List Char} {bare : Bool}
    {conditions : List (List Char)} (hrest : scanEnd .code rest = .code) :
    (∀ part ∈ conditionParts word bare closing rest conditions, scanEnd .code part.2 = .code) ↔
      ∀ condition ∈ conditions, scanEnd .code condition = .code := by
  rw [texts_conditionParts (P := fun text => scanEnd .code text = .code) fun _ => hrest]
  exact and_iff_left fun _ => hrest

theorem infix_conditionParts (word closing rest : List Char) (bare : Bool)
    (conditions : List (List Char)) :
    conditions <:+: (conditionParts word bare closing rest conditions).map Prod.snd := by
  cases conditions with
  | nil => exact List.nil_infix
  | cons condition others =>
    rw [conditionParts]
    split
    · next hbare =>
      simp only [Bool.and_eq_true, List.isEmpty_iff] at hbare
      rw [hbare.2, List.map_cons]
      exact ⟨[], _, rfl⟩
    · refine ⟨[], [rest], ?_⟩
      simp [Function.comp_def]

theorem infix_weave_texts (shape : Shape) (conditions : List (List Char)) :
    conditions <:+: (shape.weave conditions).parts.map Prod.snd := by
  cases shape with
  | nested => exact (infix_conditionParts ..).trans (List.suffix_cons ..).isInfix
  | narrowed => exact (infix_conditionParts ..).trans (List.suffix_cons ..).isInfix
  | divided => exact infix_conditionParts ..
  | plain => exact infix_conditionParts ..

/-- The texts of a shape end in code, but for the blanks that are taken off. -/
inductive InCode : Shape → Prop
  | nested {base : List Char} (hbase : scanEnd .code base = .code) : InCode (nested base)
  | narrowed {before existing rest : List Char} (hbefore : scanEnd .code before = .code)
      (hexisting : scanEnd .code existing = .code)
      (hrest : scanEnd .code (Text.trim rest) = .code) : InCode (narrowed before existing rest)
  | divided {before rest : List Char} (hbefore : scanEnd .code before = .code)
      (hrest : scanEnd .code rest = .code) : InCode (divided before rest)
  | plain {base : List Char} (hbase : scanEnd .code (Text.trimEnd base) = .code) :
      InCode (plain base)

/-- What the trimmed text of a shape can lose is the end of a line comment. -/
theorem InCode.trimmed {shape : Shape} (h : shape.InCode) :
    ∀ text ∈ shape.trimmed, scanEnd .code text = .code ∨ scanEnd .code text = .lineComment := by
  cases h with
  | nested => simp [Shape.trimmed]
  | narrowed _ hexisting _ => simpa [Shape.trimmed] using scanEnd_trim hexisting
  | divided hbefore _ => simpa [Shape.trimmed] using scanEnd_trimEnd hbefore
  | plain => simp [Shape.trimmed]

/-- **A weave of conditions shows its words** exactly if the trimmed text of the statement and all
conditions end in code. -/
theorem InCode.shows_weave_iff {shape : Shape} (h : shape.InCode) (conditions : List (List Char)) :
    (shape.weave conditions).Shows ↔
      (∀ text ∈ shape.trimmed, scanEnd .code text = .code) ∧
        ∀ condition ∈ conditions, scanEnd .code condition = .code := by
  refine (Weave.shows_iff fun part hpart =>
    isWord_of_mem_addedWords _ (mem_addedWords shape conditions part hpart)).trans ?_
  cases h with
  | nested hbase =>
    rw [Shape.weave, List.forall_mem_cons, scanEnd_conditionParts rfl]
    simp [Shape.trimmed, scanEnd, hbase]
  | narrowed hbefore _ hrest =>
    rw [Shape.weave, List.forall_mem_cons, scanEnd_conditionParts hrest]
    simp [Shape.trimmed, hbefore]
  | divided _ hrest =>
    rw [Shape.weave, scanEnd_conditionParts hrest]
    simp [Shape.trimmed]
  | plain hbase =>
    rw [Shape.weave, scanEnd_conditionParts rfl]
    simp [Shape.trimmed, hbase]

end Shape

namespace Restriction

variable {restriction : Restriction}

/-- The narrowed statement as a weave. -/
def weave (restriction : Restriction) : Weave :=
  (shape restriction.base).weave (restriction.conditions.map String.toList)

theorem toList_join_parenthesised (condition : String) (others : List String) :
    (Text.join " AND " ((condition :: others).map parenthesised)).toList =
      ['('] ++ condition.toList ++
        ((others.map String.toList).flatMap fun other => ") AND (".toList ++ other) ++ [')'] := by
  induction others generalizing condition with
  | nil => simp [Text.join, parenthesised]
  | cons other rest ih =>
    have hjoin : Text.join " AND " ((condition :: other :: rest).map parenthesised) =
        parenthesised condition ++ " AND " ++
          Text.join " AND " ((other :: rest).map parenthesised) := rfl
    rw [hjoin, String.toList_append, ih other]
    simp [parenthesised]

theorem text_conditionParts {word closing rest : List Char} {bare : Bool}
    (hclosing : closing = [] → rest = []) (hconditions : restriction.conditions ≠ []) :
    ((Shape.conditionParts word bare closing rest
      (restriction.conditions.map String.toList)).flatMap fun part => part.1 ++ part.2) =
      word ++ (restriction.joined !bare).toList ++ closing ++ rest := by
  obtain ⟨condition, others, heq⟩ := List.exists_cons_of_ne_nil hconditions
  have hjoined : (restriction.joined !bare).toList =
      if bare && others.isEmpty then condition.toList
      else ['('] ++ condition.toList ++
        ((others.map String.toList).flatMap fun other => ") AND (".toList ++ other) ++ [')'] := by
    rw [joined, heq]
    cases others with
    | nil => cases bare <;> simp [parenthesised]
    | cons other rest =>
      rw [List.isEmpty_cons, Bool.and_false, ← toList_join_parenthesised]
      rfl
  rw [hjoined, heq, List.map_cons, Shape.conditionParts, List.isEmpty_map]
  split
  · cases closing with
    | nil => simp [hclosing]
    | cons => simp
  · simp [List.flatMap_map]

/-- **The narrowed statement is its weave.** -/
theorem toList_build (hconditions : restriction.conditions ≠ []) :
    restriction.build.toList = restriction.weave.text := by
  have hempty : restriction.conditions.isEmpty = false := by simpa using hconditions
  simp only [build, hempty, Bool.false_eq_true, ↓reduceIte, weave]
  cases shape restriction.base with
  | nested base => simp [Shape.weave, Weave.text, text_conditionParts, hconditions]
  | narrowed before existing rest =>
    by_cases hrest : Text.trim rest = []
    · simp [Shape.weave, Weave.text, text_conditionParts, hconditions, hrest]
    · simp [Shape.weave, Weave.text, text_conditionParts, hconditions, hrest]
  | divided before rest => simp [Shape.weave, Weave.text, text_conditionParts, hconditions]
  | plain base => simp [Shape.weave, Weave.text, text_conditionParts, hconditions]

section

variable {code : List Char} (hcode : scanEnd .code code = .code)
  (hend : ∀ c ∈ code.getLast?, Text.isBlank c = false)

include hcode

theorem inCode_divided {span : Span}
    (hspan : find? boundaryKeyword ((cells .code code).map Cell.face) = some span) :
    (Shape.divided (code.take span.start) (code.drop span.start)).InCode := by
  have hat : CodeAt code span.start := (codeAt_of_findFrom hspan).2
  exact .divided hat.scanEnd_take (hat.scanEnd_drop.trans hcode)

include hend

/-- Behind the keyword the scan stands in code, and again at the boundary that follows. -/
theorem inCode_narrowed {keyword : Span}
    (hkeyword : find? whereKeyword ((cells .code code).map Cell.face) = some keyword) :
    let boundary := match findAfter? boundaryKeyword ((cells .code code).map Cell.face)
        keyword.stop with
      | some span => span.start
      | none => code.length
    (Shape.narrowed (code.take keyword.start) ((code.take boundary).drop keyword.stop)
      (code.drop boundary)).InCode := by
  obtain ⟨hbefore, hcells, hbehind⟩ := codeAt_behind_where hkeyword
  rw [hcode] at hbehind
  cases hboundary : findAfter? boundaryKeyword ((cells .code code).map Cell.face) keyword.stop with
  | none =>
    simp only [List.take_length, List.drop_length]
    exact .narrowed hbefore.scanEnd_take hbehind rfl
  | some span =>
    rw [findAfter?, ← List.map_drop, ← hcells] at hboundary
    obtain ⟨hle, hat⟩ := codeAt_of_findFrom hboundary
    have hrest : (code.drop keyword.stop).drop (span.start - keyword.stop) =
        code.drop span.start := by rw [List.drop_drop, Nat.add_sub_cancel' hle]
    have hlast : ∀ c, (code.drop span.start).getLast? = some c → Text.isBlank c = false := by
      intro c hc
      rw [List.getLast?_drop] at hc
      split at hc
      · cases hc
      · exact hend c hc
    refine .narrowed hbefore.scanEnd_take (List.drop_take ▸ hat.scanEnd_take) ?_
    rw [trim_eq_trimStart hlast, scanEnd_trimStart, ← hrest, hat.scanEnd_drop, hbehind]

end

theorem inCode_shape_of_unquoted {base : String} (h : (scanEnd .code base.toList).Unquoted) :
    (shape base).InCode := by
  obtain ⟨-, -, -, hcells, hcode, -⟩ := scan_body h
  have hend := fun c => @not_isBlank_last_body (cells .code base.toList) c
  rw [shape]
  -- from here on only the kept characters matter, and their cells are those that were kept
  generalize body (cells .code base.toList) = kept at hcells hcode hend ⊢
  generalize chars kept = code at hcells hcode hend ⊢
  subst hcells
  dsimp only
  split
  · exact .nested hcode
  · split
    · next keyword hkeyword => exact inCode_narrowed hcode hend hkeyword
    · split
      · next span hspan => exact inCode_divided hcode hspan
      · exact .plain (by rwa [trimEnd_eq_self hend])

theorem inCode_shape {base : String} (h : scanEnd .code base.toList = .code) :
    (shape base).InCode := by
  refine inCode_shape_of_unquoted ?_
  rw [h]
  exact unquoted_code

/-- The conditions that are left of predicates: blank ones are none, and the others are trimmed. -/
def added (predicates : List String) : List (List Char) :=
  (predicates.map fun predicate => Text.trim predicate.toList).filter fun trimmed =>
    !trimmed.isEmpty

theorem added_cons (predicate : String) (rest : List String) :
    added (predicate :: rest) =
      (if (Text.trim predicate.toList).isEmpty then [] else [Text.trim predicate.toList]) ++
        added rest := by
  cases hempty : (Text.trim predicate.toList).isEmpty <;> simp [added, hempty]

theorem conditions_foldl_add (predicates : List String) (start : Restriction) :
    predicates.foldl add start =
      { start with conditions := start.conditions ++ (added predicates).map String.ofList } := by
  induction predicates generalizing start with
  | nil => simp [added]
  | cons predicate rest ih =>
    rw [List.foldl_cons, ih, added_cons, add]
    split <;> simp

theorem foldl_add {predicates : List String}
    (hblank : ∀ predicate ∈ predicates, Text.trim predicate.toList ≠ []) (start : Restriction) :
    predicates.foldl add start = { start with
      conditions := start.conditions ++
        predicates.map (fun predicate => String.ofList (Text.trim predicate.toList)) } := by
  have hall : added predicates = predicates.map fun predicate => Text.trim predicate.toList :=
    List.filter_eq_self.2 (List.forall_mem_map.2 fun predicate hmem => by
      simpa using hblank predicate hmem)
  rw [conditions_foldl_add, hall, List.map_map]
  rfl

/-- **Conditions are never swallowed** by comments or quotes, unless trimming takes off the end of
a line comment.  Given a statement and conditions that end in code, the narrowed statement is its
weave, in which the conditions occur in their order; and the weave shows all added words and ends
in code exactly if neither a condition nor the text of the statement before an added word ends with
a line comment when it is trimmed. -/
theorem build_shows_iff {base : String} {predicates : List String}
    (hbase : scanEnd .code base.toList = .code)
    (hpredicates : ∀ predicate ∈ predicates, scanEnd .code predicate.toList = .code)
    (hnonempty : predicates ≠ [])
    (hblank : ∀ predicate ∈ predicates, Text.trim predicate.toList ≠ []) :
    let restriction := predicates.foldl add { base }
    let conditions := predicates.map fun predicate => Text.trim predicate.toList
    restriction.build.toList = restriction.weave.text ∧
      conditions <:+: restriction.weave.parts.map Prod.snd ∧
      (restriction.weave.Shows ↔
        ∀ text ∈ (shape base).trimmed ++ conditions, scanEnd .code text ≠ .lineComment) := by
  intro restriction conditions
  have hrestriction : restriction = ⟨base, conditions.map String.ofList⟩ := by
    simp [restriction, foldl_add hblank, conditions]
  have hweave : restriction.weave = (shape base).weave conditions := by
    simp [weave, hrestriction, Function.comp_def]
  have hcode := inCode_shape hbase
  -- of what is trimmed, nothing can end anywhere else
  have hiff : ∀ text, scanEnd .code text = .code ∨ scanEnd .code text = .lineComment →
      (scanEnd .code text = .code ↔ scanEnd .code text ≠ .lineComment) := by
    rintro text (htext | htext) <;> simp [htext]
  have hbuild : restriction.build.toList = restriction.weave.text :=
    toList_build (by simpa [hrestriction, conditions] using hnonempty)
  have hinfix : conditions <:+: restriction.weave.parts.map Prod.snd := by
    rw [hweave]
    exact Shape.infix_weave_texts _ _
  refine ⟨hbuild, hinfix, ?_⟩
  rw [hweave, hcode.shows_weave_iff, List.forall_mem_append]
  refine and_congr (forall₂_congr fun text htext => hiff text (hcode.trimmed text htext)) ?_
  simp only [conditions, List.forall_mem_map]
  exact forall₂_congr fun predicate hpredicate => hiff _ (scanEnd_trim (hpredicates _ hpredicate))

/-- A condition before an `ORDER BY`. -/
theorem build_shows_iff_divided :
    let restriction := ["a = 1"].foldl add { base := "SELECT * FROM t ORDER BY ts" }
    let conditions := ["a = 1"].map fun predicate => Text.trim predicate.toList
    restriction.build.toList = restriction.weave.text ∧
      conditions <:+: restriction.weave.parts.map Prod.snd ∧
      (restriction.weave.Shows ↔
        ∀ text ∈ (shape "SELECT * FROM t ORDER BY ts").trimmed ++ conditions,
          scanEnd .code text ≠ .lineComment) :=
  build_shows_iff (by decide) (by decide) (by decide) (by decide)

/-- The line end of a comment before an `ORDER BY` is taken off, and the comment swallows the
condition. -/
example :
    (Restriction.mk "SELECT * FROM t -- note\nORDER BY ts" ["a = 1"]).build =
      "SELECT * FROM t -- note WHERE a = 1 ORDER BY ts" := by decide

end Restriction

end Sql

end ViewCompiler
